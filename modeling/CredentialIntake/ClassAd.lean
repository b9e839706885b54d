import CredentialIntake.Json.Record

/-!
# ClassAds

A request arrives as one flat ClassAd: text attributes by name, names case
sensitive. Each embedded credential has an id and announces itself by the
attribute that carries its encrypted security class; its material is carried by
a second attribute with the same id.
-/

namespace CredentialIntake

structure ClassAd where
  attributes : TextMap

namespace ClassAd

/-! ## Attribute names -/

def clientName : String := "ClientName"
def authenticatedIdentity : String := "AuthenticatedIdentity"
def keyCode : String := "ReqEncKeyCode"
def claimedIdentity : String := "ReqEncIdentity"
def securityName : String := "GlideinEncParamSecurityName"
/-- What the name of every security class attribute begins with. -/
def securityClassLead : String := "GlideinEncParamSecurityClass"
/-- What the name of every encrypted parameter begins with. -/
def parameterLead : String := "GlideinEncParam"

/-- The attribute that carries the security class of a credential. -/
def securityClassKey (id : String) : String := securityClassLead ++ id

/-- The attribute that carries the material of a credential. -/
def parameterKey (id : String) : String := parameterLead ++ id

/-! ## Reading attributes -/

def ofList (attributes : List (String × String)) : ClassAd := ⟨Std.ExtTreeMap.ofList attributes⟩

def get? (ad : ClassAd) (key : String) : Option String := ad.attributes[key]?

def contains (ad : ClassAd) (key : String) : Bool := ad.attributes.contains key

/-- The attribute names in ascending order. -/
def keys (ad : ClassAd) : List String := ad.attributes.keys

/-- The id a security class attribute announces. -/
def idOfKey? (key : String) : Option String :=
  (securityClassLead.toList.isPrefixOf? key.toList).map String.ofList

/-- The ids of the embedded credentials, in ascending order of their attributes. -/
def credentialIds (ad : ClassAd) : List String := ad.keys.filterMap idOfKey?

/-- A ClassAd written as a JSON object of texts. -/
def ofJson? (value : Json.Value) : Option ClassAd := value.textMap?.map ClassAd.mk

end ClassAd

end CredentialIntake
