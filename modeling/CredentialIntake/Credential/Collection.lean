import CredentialIntake.Credential.Basic
import Std.Data.ExtTreeMap

/-!
# Collections of credentials

Credentials by name, in the order of the names.
-/

namespace CredentialIntake

structure Credentials where
  byName : Std.ExtTreeMap String Credential

namespace Credentials

def empty : Credentials := ⟨∅⟩

def get? (credentials : Credentials) (name : String) : Option Credential :=
  credentials.byName[name]?

/-- Puts a credential under a name, in place of the one that was there. -/
def insert (credentials : Credentials) (name : String) (credential : Credential) : Credentials :=
  ⟨credentials.byName.insert name credential⟩

def size (credentials : Credentials) : Nat := credentials.byName.size

def isEmpty (credentials : Credentials) : Bool := credentials.byName.isEmpty

def toList (credentials : Credentials) : List (String × Credential) := credentials.byName.toList

/-- The credentials of one kind in one trust domain. -/
def inTrustDomain (credentials : Credentials) (kind : CredentialKind) (trustDomain : String) :
    List Credential :=
  (credentials.toList.map (·.2)).filter fun credential =>
    credential.kind = kind && credential.trustDomain == trustDomain

end Credentials

end CredentialIntake
