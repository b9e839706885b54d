import CredentialIntake.FileTree.Fault
import CredentialIntake.Path
import CredentialIntake.Text.Decimal

/-!
# Faulty settings

Why a settings document or a setting from the environment is not usable, with
the fault underneath where there is one.
-/

namespace CredentialIntake

/-- The documents settings are kept in. -/
inductive Document where
  | factoryConfig
  | frontendDescriptor
  | entryDescriptor
  deriving DecidableEq, Repr

def Document.text : Document → String
  | .factoryConfig => "factory config"
  | .frontendDescriptor => "frontend descript"
  | .entryDescriptor => "element descript"

inductive SettingsError where
  | unreadable (document : Document) (path : Path) (fault : FileFault)
  | unparsable (document : Document) (path : Path)
  /-- A word that names no policy, already trimmed and in lower case. -/
  | unknownMethodPolicy (word : String)
  | workersNotNumber (text : String) (fault : Text.NumberFault)
  deriving DecidableEq

namespace SettingsError

def message : SettingsError → String
  | unreadable document path _ => "reading " ++ document.text ++ " " ++ path.text
  | unparsable document path => "parsing " ++ document.text ++ " " ++ path.text
  | unknownMethodPolicy word => s!"unknown auth method policy '{word}', expected allow|deny"
  | workersNotNumber text _ => s!"GLIDECRED_WORKERS='{text}' is not a number"

/-- The texts of the faults underneath, the nearest first. -/
def causes : SettingsError → List String
  | unreadable _ _ fault => [fault.message]
  | workersNotNumber _ fault => [fault.message]
  | _ => []

end SettingsError

end CredentialIntake
