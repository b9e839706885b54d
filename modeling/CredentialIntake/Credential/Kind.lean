/-!
# Credential kinds

The kinds of credential material an entry can be configured with, each with the
name it has in descriptors. The order of `all` is the order of the kinds.
-/

namespace CredentialIntake

inductive CredentialKind where
  | gridProxy
  | certPair
  | keyPair
  | usernamePassword
  | authFile
  | sciToken
  deriving DecidableEq, Repr

namespace CredentialKind

def all : List CredentialKind :=
  [.gridProxy, .certPair, .keyPair, .usernamePassword, .authFile, .sciToken]

def text : CredentialKind → String
  | .gridProxy => "grid_proxy"
  | .certPair => "cert_pair"
  | .keyPair => "key_pair"
  | .usernamePassword => "username_password"
  | .authFile => "auth_file"
  | .sciToken => "scitoken"

def ofText? (text : String) : Option CredentialKind := all.find? (·.text == text)

theorem mem_all (kind : CredentialKind) : kind ∈ all := by cases kind <;> decide

theorem ofText?_text (kind : CredentialKind) : ofText? kind.text = some kind := by
  cases kind <;> decide

end CredentialKind

end CredentialIntake
