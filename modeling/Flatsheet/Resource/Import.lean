import Flatsheet.Comment
import Flatsheet.Diagnostic
import Flatsheet.Fault
import Flatsheet.Resource.Cache
import Flatsheet.Resource.Library

/-!
Imports. `@import "_partial";` and `@import "theme.pscss";` are replaced by the resource they name,
with its own imports resolved in turn. A resource that has been claimed before contributes nothing,
and one that cannot be loaded is reported and contributes nothing. Other imports stay as they are.
-/

namespace Flatsheet.Import

/-- `@import` and a placeholder, with the semicolon after it if there is one. The meaning is the
digits of the placeholder. -/
def statement? : Pattern Text := fun text => do
  let afterKeyword ← Text.dropPrefix? "@import" text
  let (digits, rest) ← Vault.placeholder? afterKeyword.trimLeft
  match rest.trimLeft with
  | ';' :: afterSemicolon => return (digits, afterSemicolon)
  | _ => return (digits, rest)

structure State where
  vault : Vault
  cache : Cache
  notices : List Notice
  /-- The identifiers that the library was asked for, in order. -/
  requests : List Text

/-- Resolution of imports. What was done before a fault stays done. -/
abbrev ImportM := ExceptT Fault (StateM State)

def claim (identifier : Text) : ImportM Bool :=
  modifyGet fun state =>
    let (free, cache) := state.cache.claim identifier
    (free, { state with cache })

def request (identifier : Text) : ImportM Unit :=
  modify fun state => { state with requests := state.requests ++ [identifier] }

def report (notice : Notice) : ImportM Unit :=
  modify fun state => { state with notices := state.notices ++ [notice] }

def protect (text : Text) : ImportM Text :=
  modifyGet fun state =>
    let (text, vault) := state.vault.protect text
    (text, { state with vault })

/-- Where resources come from, and how their comments are read. -/
structure Source where
  library : Library
  nestedComments : Bool

/-- A loaded resource as it goes into the text: newlines unified, literals lifted out, comments
removed. -/
def prepare (source : Source) (text : Text) : ImportM Text := do
  return Comment.strip source.nestedComments (← protect text.unifyNewlines)

/-- Replaces one import that stands in the resource `base`. The text of the resource goes through
`inline` together with its identifier. -/
def replaceImport (source : Source) (inline : Text → Text → ImportM Text) (base : Option Text)
    (line : Nat) (digits statement : Text) : ImportM Text := do
  match (← get).vault.numbered digits with
  | .error error => throw (.literal error)
  | .ok literal =>
      let path := Vault.unquote literal
      if !Path.isSheet path then return statement
      let identifier := Path.resolve base (Path.withoutMark path)
      if !(← claim identifier) then return []
      request identifier
      match source.library.load identifier with
      | .ok text => inline identifier (← prepare source text)
      | .error .undecodable => throw .undecodable
      | .error .nullCharacter => throw .nullCharacter
      | .error error =>
          match (← get).vault.restore statement with
          | .error error => throw (.literal error)
          | .ok construct =>
              report ⟨.notLoaded error.message, some line, some construct⟩
              return []

/-- Resolves the imports of a text that stands in the resource `base`, going at most `depth`
resources deep. -/
def resolveWithin (source : Source) : (depth : Nat) → (base : Option Text) → Text → ImportM Text
  | 0, base, text =>
      statement?.replaceM (replaceImport source (fun _ _ => throw .endlessImports) base) text
  | depth + 1, base, text =>
      statement?.replaceM
        (replaceImport source (fun identifier => resolveWithin source depth (some identifier)) base)
        text

def resolveAll (source : Source) (base : Option Text) (text : Text) : ImportM Text :=
  resolveWithin source source.library.nesting base text

end Flatsheet.Import
