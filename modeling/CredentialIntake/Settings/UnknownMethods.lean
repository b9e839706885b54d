import CredentialIntake.Settings.Error
import CredentialIntake.Text.Blank

/-!
# Entries with unknown methods only

What to do with a request for an entry that declares only authentication methods
the factory does not know: let it through with a warning, so that newer
frontends keep working, or refuse it.
-/

namespace CredentialIntake

inductive UnknownMethodPolicy where
  | allow
  | deny
  deriving DecidableEq, Repr

namespace UnknownMethodPolicy

/-- The policies by the words they are written with. -/
def words : List (String × UnknownMethodPolicy) := [("allow", .allow), ("deny", .deny)]

def text : UnknownMethodPolicy → String
  | allow => "allow"
  | deny => "deny"

/-- Reads a policy; blanks around the word and the case of its letters do not
matter. -/
def read (text : String) : Except SettingsError UnknownMethodPolicy :=
  let word := Text.lowerCase (Text.trim text)
  match words.lookup word with
  | some policy => .ok policy
  | none => .error (.unknownMethodPolicy word)

end UnknownMethodPolicy

end CredentialIntake
