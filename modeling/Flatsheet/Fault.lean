import Flatsheet.Resource.FileTree
import Flatsheet.Vault

/-!
Faults: what stops a conversion. A mistake in a sheet is no fault; a fault comes from a placeholder
written by hand, from a resource that cannot be had, or from a plug-in.
-/

namespace Flatsheet

inductive Fault where
  /-- A placeholder stands for no literal of the vault. -/
  | literal (error : Vault.Error)
  /-- The sheet to be converted could not be loaded, for this reason. -/
  | notLoaded (reason : Text)
  /-- The bytes of a resource are no text in its encoding. -/
  | undecodable
  /-- The path of a resource can be no path of a file. -/
  | nullCharacter
  /-- Imports lead ever deeper. -/
  | endlessImports
  /-- A plug-in gave up with this message. -/
  | plugin (message : Text)
deriving DecidableEq, Repr

def Fault.message : Fault → Text
  | .literal error => error.message
  | .notLoaded reason => reason
  | .undecodable => "the resource is not written in its encoding"
  | .nullCharacter => FileError.nullCharacter.reason
  | .endlessImports => "imports lead ever deeper"
  | .plugin message => message

end Flatsheet
