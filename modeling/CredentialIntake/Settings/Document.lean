import CredentialIntake.FileTree.Basic
import CredentialIntake.Json.Reader
import CredentialIntake.Settings.Error

/-!
# Loading settings documents

Every settings document is one JSON file. Loading one fails either because the
file cannot be read as a text, or because the text is no such document.
-/

namespace CredentialIntake

/-- Reads a document out of a JSON text. -/
def parseDocument? {α : Type} (read : Json.Value → Option α) (text : String) : Option α :=
  (Json.read? text).bind read

/-- Reads a document out of a file. -/
def loadDocument {α : Type} (document : Document) (read : Json.Value → Option α)
    (tree : FileTree) (path : Path) : Except SettingsError α :=
  match tree.readText path with
  | .error fault => .error (.unreadable document path fault)
  | .ok text =>
    match parseDocument? read text with
    | none => .error (.unparsable document path)
    | some content => .ok content

end CredentialIntake
