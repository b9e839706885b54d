import CredentialIntake.Text.Blank
import CredentialIntake.Text.Split

/-!
# Authentication methods of entries

An entry declares how its glideins authenticate, as names joined by `+`, blanks
around each name allowed. A name the factory knows stands for a kind of method;
any other name is kept as it is.
-/

namespace CredentialIntake

/-- The kinds of methods the factory knows. -/
inductive MethodKind where
  | gridProxy
  | certPair
  | keyPair
  | authFile
  | usernamePassword
  | idToken
  | sciToken
  deriving DecidableEq, Repr

/-- The kinds by their names. -/
def MethodKind.names : List (String × MethodKind) :=
  [("grid_proxy", .gridProxy), ("cert_pair", .certPair), ("key_pair", .keyPair),
    ("auth_file", .authFile), ("username_password", .usernamePassword), ("idtoken", .idToken),
    ("scitoken", .sciToken)]

/-- One of the names a declared method consists of. -/
inductive MethodPart where
  | known (kind : MethodKind)
  | other (name : String)
  deriving DecidableEq, Repr

namespace MethodPart

def ofName (name : String) : MethodPart :=
  match MethodKind.names.lookup name with
  | some kind => .known kind
  | none => .other name

def isSupported : MethodPart → Bool
  | known _ => true
  | other _ => false

end MethodPart

/-- A declared method: its text and the parts it is made of. -/
structure AuthMethod where
  text : String
  parts : List MethodPart
  deriving DecidableEq, Repr

namespace AuthMethod

def ofText (text : String) : AuthMethod where
  text
  parts := (Text.split '+' text).map fun name => MethodPart.ofName (Text.trim name)

def contains (method : AuthMethod) (part : MethodPart) : Bool := method.parts.contains part

/-- Whether a kind is among the parts. -/
def supports (method : AuthMethod) (kind : MethodKind) : Bool := method.contains (.known kind)

def hasSupported (method : AuthMethod) : Bool := method.parts.any MethodPart.isSupported

end AuthMethod

end CredentialIntake
