import CredentialIntake.Credential.Basic
import CredentialIntake.Error
import CredentialIntake.Json.Record
import CredentialIntake.Proofs.DecimalNumbers
import CredentialIntake.Proofs.TextForms

/-!
# Fields of credentials

Which fields make up a credential of each kind, which fault of others is the
first one, and the fields that a credential is written down in.  Nothing here
takes fields one by one: all is said about the fields as a whole.
-/

namespace CredentialIntake

/-! ## Fields of a kind -/

namespace CredentialKind

/-- The fields a kind cannot do without, in the order in which they are asked for. -/
def requiredFields : CredentialKind → List String
  | .gridProxy => ["cred_loc"]
  | .certPair => ["cert", "certkey"]
  | .keyPair => ["pub_key", "priv_key"]
  | .usernamePassword => ["username", "password"]
  | .authFile => ["file"]
  | .sciToken => ["cred_loc"]

def optionalFields : CredentialKind → List String
  | .keyPair => ["rem_user"]
  | .authFile => ["rem_user"]
  | _ => []

theorem ofText?_eq_some_iff {text : String} {kind : CredentialKind} :
    ofText? text = some kind ↔ kind.text = text := by
  constructor
  · intro hfound
    simpa using List.find?_some hfound
  · rintro rfl
    exact ofText?_text kind

end CredentialKind

/-- The fields that hold a material, with what they hold. -/
def Material.entries : Material → List (String × Option String)
  | .gridProxy location => [("cred_loc", some location.text)]
  | .sciToken location => [("cred_loc", some location.text)]
  | .certPair cert key => [("cert", some cert.text), ("certkey", some key.text)]
  | .keyPair publicKey privateKey remoteUsername =>
    [("pub_key", some publicKey.text), ("priv_key", some privateKey.text),
      ("rem_user", remoteUsername)]
  | .usernamePassword username password =>
    [("username", some username), ("password", some password)]
  | .authFile file remoteUsername => [("file", some file.text), ("rem_user", remoteUsername)]

namespace Credential

/-- The fields that credentials of all kinds may have. -/
def sharedFields : List String :=
  ["sec_class", "trust_dom", "vm_id", "vm_type", "pilot_proxy", "update_freq", "creation_script"]

/-- All fields that have to be there, in the order in which they are asked for. -/
def demandedFields (kind : CredentialKind) : List String :=
  kind.requiredFields ++ ["sec_class", "trust_dom"]

def knownFields (kind : CredentialKind) : List String :=
  kind.requiredFields ++ kind.optionalFields ++ sharedFields

/-- The text spells a number of seconds, blanks around it allowed. -/
def IsSeconds (text : String) (number : Nat) : Prop :=
  ∃ digits, Text.IsTrimOf digits text ∧ Text.IsDecimal digits number

theorem isSeconds_iff {text : String} {number : Nat} :
    IsSeconds text number ↔ Text.IsDecimal (Text.trim text) number := by
  simp only [IsSeconds, Text.isTrimOf_iff, exists_eq_left]

theorem IsSeconds.fits {text : String} {number : Nat} (hseconds : IsSeconds text number) :
    number < Text.numberLimit :=
  (isSeconds_iff.1 hseconds).fits

/-- The digits a number is written with are a number of seconds. -/
theorem isSeconds_toString {number : Nat} (hfits : number < Text.numberLimit) :
    IsSeconds (toString number) number := by
  rw [isSeconds_iff, Text.trim_toString]
  exact Text.isDecimal_toString hfits

/-- The fields make up a credential of the kind. -/
structure WellFormed (kind : CredentialKind) (fields : TextMap) : Prop where
  complete : ∀ name ∈ demandedFields kind, name ∈ fields
  seconds : ∀ text, fields["update_freq"]? = some text → ∃ number, IsSeconds text number
  nothingElse : ∀ name ∈ fields, name ∈ knownFields kind

/-- The fault that is met first among fields that make up no credential. -/
inductive FirstFieldFault (kind : CredentialKind) (fields : TextMap) : FieldFault → Prop where
  | missing {before after : List String} {name : String} :
      demandedFields kind = before ++ name :: after → (∀ earlier ∈ before, earlier ∈ fields) →
      name ∉ fields → FirstFieldFault kind fields (.missing name)
  | notSeconds {text : String} : (∀ name ∈ demandedFields kind, name ∈ fields) →
      fields["update_freq"]? = some text → (¬ ∃ number, IsSeconds text number) →
      FirstFieldFault kind fields (.notSeconds text)
  | unexpected {names : List String} : (∀ name ∈ demandedFields kind, name ∈ fields) →
      (∀ text, fields["update_freq"]? = some text → ∃ number, IsSeconds text number) →
      names ≠ [] → names.Pairwise (· < ·) →
      (∀ name, name ∈ names ↔ name ∈ fields ∧ name ∉ knownFields kind) →
      FirstFieldFault kind fields (.unexpected names)

/-! ## Fields written down -/

/-- The fields that hold what credentials of all kinds have. -/
def sharedEntries (credential : Credential) : List (String × Option String) :=
  [("sec_class", some credential.securityClass), ("trust_dom", some credential.trustDomain),
    ("vm_id", credential.cloud.vmId), ("vm_type", credential.cloud.vmType),
    ("pilot_proxy", credential.cloud.pilotProxy),
    ("update_freq", credential.renewal.updateFrequency.map toString),
    ("creation_script", credential.renewal.creationScript)]

def entries (credential : Credential) : List (String × Option String) :=
  credential.material.entries ++ credential.sharedEntries

/-- The fields a credential can be built from, numbers in plain digits. -/
def toFields (credential : Credential) : TextMap :=
  credential.entries.foldr (fun (name, value) fields => fields.alter name fun _ => value) ∅

/-- The same fields, but for the spelling of the number of seconds. -/
structure SameButSpelling (left right : TextMap) : Prop where
  others : ∀ name, name ≠ "update_freq" → left[name]? = right[name]?
  seconds : Option.Rel
    (fun written given => ∃ number, IsSeconds written number ∧ IsSeconds given number)
    left["update_freq"]? right["update_freq"]?

theorem map_fst_entries (credential : Credential) :
    credential.entries.map Prod.fst = knownFields credential.kind := by
  rw [entries, List.map_append, knownFields]
  congr 1
  rw [kind]
  cases credential.material <;> rfl

theorem getElem?_toFields (credential : Credential) (name : String) :
    credential.toFields[name]? = (credential.entries.lookup name).join := by
  rw [toFields]
  induction credential.entries with
  | nil => simp
  | cons entry rest ih =>
    obtain ⟨other, value⟩ := entry
    rw [List.foldr_cons, Std.ExtTreeMap.getElem?_alter, ih, List.lookup_cons]
    by_cases hsame : name = other
    · simp [hsame]
    · simp [Ne.symm hsame, beq_eq_false_iff_ne.2 hsame]

/-- The credential holds what the fields say. -/
structure Holds (credential : Credential) (fields : TextMap) : Prop where
  material : ∀ entry ∈ credential.material.entries, fields[entry.1]? = entry.2
  shared : ∀ entry ∈ credential.sharedEntries, entry.1 ≠ "update_freq" →
    fields[entry.1]? = entry.2
  frequency : Option.Rel IsSeconds fields["update_freq"]? credential.renewal.updateFrequency

theorem Holds.getElem?_eq {credential : Credential} {fields : TextMap}
    (hholds : credential.Holds fields) {name : String} {value : Option String}
    (hentry : (name, value) ∈ credential.entries) (hname : name ≠ "update_freq") :
    fields[name]? = value := by
  rcases List.mem_append.1 hentry with hmaterial | hshared
  · exact hholds.material _ hmaterial
  · exact hholds.shared _ hshared hname

/-- Fields with no name but the known ones can be written down again from the
credential that holds them. -/
theorem Holds.sameButSpelling {credential : Credential} {fields : TextMap}
    (hholds : credential.Holds fields)
    (hknown : ∀ name ∈ fields, name ∈ knownFields credential.kind) :
    SameButSpelling credential.toFields fields := by
  constructor
  · intro name hname
    rw [getElem?_toFields]
    cases hlookup : credential.entries.lookup name with
    | none =>
      have hunknown : name ∉ knownFields credential.kind := by
        rw [← map_fst_entries, List.mem_map]
        rintro ⟨entry, hentry, rfl⟩
        simpa using List.lookup_eq_none_iff.1 hlookup entry hentry
      exact (Std.ExtTreeMap.getElem?_eq_none fun hmem => hunknown (hknown name hmem)).symm
    | some value =>
      obtain ⟨before, after, hsplit, -⟩ := List.lookup_eq_some_iff.1 hlookup
      exact (hholds.getElem?_eq (by simp [hsplit]) hname).symm
  · have hwritten : credential.toFields["update_freq"]? =
        credential.renewal.updateFrequency.map toString := by
      rw [getElem?_toFields, entries]
      cases credential.material <;> rfl
    rw [hwritten]
    have hfrequency := hholds.frequency
    revert hfrequency
    generalize fields["update_freq"]? = given, credential.renewal.updateFrequency = number
    rintro (⟨hseconds⟩ | _)
    · exact .some ⟨_, isSeconds_toString hseconds.fits, hseconds⟩
    · exact .none

end Credential

end CredentialIntake
