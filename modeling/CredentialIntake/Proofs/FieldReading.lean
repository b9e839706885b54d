import CredentialIntake.Credential.Fields
import CredentialIntake.Proofs.FieldForms

/-!
# Reading fields one by one

What a reader makes of the fields it takes and which fields it leaves.  Each
constructor takes the fields of its kind, demanded ones in their order; after
that the shared fields are read in the same way, and the outcome depends on the
number of seconds and on what is left over at the end.
-/

namespace CredentialIntake.Credential

open FieldReader

/-! ## Taking fields -/

/-- The fields that are left once those of the given names are taken. -/
def without (taken : List String) (fields : TextMap) : TextMap :=
  fields.filter fun name _ => !taken.contains name

theorem getElem?_without {taken : List String} {fields : TextMap} {name : String} :
    (without taken fields)[name]? = if name ∈ taken then none else fields[name]? := by
  rw [without, Std.ExtTreeMap.getElem?_filter']
  cases fields[name]? with
  | none => simp
  | some text => by_cases htaken : name ∈ taken <;> simp [htaken]

theorem getElem?_without_of_notMem (taken : List String) {fields : TextMap} {name : String}
    (hname : name ∉ taken) : (without taken fields)[name]? = fields[name]? := by
  rw [getElem?_without, if_neg hname]

theorem mem_without_iff {taken : List String} {fields : TextMap} {name : String} :
    name ∈ without taken fields ↔ name ∈ fields ∧ name ∉ taken := by
  rw [Std.ExtTreeMap.mem_iff_isSome_getElem?, Std.ExtTreeMap.mem_iff_isSome_getElem?,
    getElem?_without]
  split <;> simp_all

theorem erase_eq_without (fields : TextMap) (name : String) :
    fields.erase name = without [name] fields := by
  apply Std.ExtTreeMap.ext_getElem?
  intro other
  simp [getElem?_without, Std.ExtTreeMap.getElem?_erase, @eq_comm _ name]

theorem without_without (first second : List String) (fields : TextMap) :
    without second (without first fields) = without (first ++ second) fields := by
  apply Std.ExtTreeMap.ext_getElem?
  intro name
  simp only [getElem?_without, List.mem_append]
  by_cases hfirst : name ∈ first <;> by_cases hsecond : name ∈ second <;> simp [hfirst, hsecond]

section Runs

variable {α β : Type} {reader : FieldReader α} {next : α → FieldReader β}
  {fields rest : TextMap} {name : String}

theorem run_bind_of_ok {value : α} (hreader : reader.run fields = .ok (value, rest)) :
    (reader >>= next).run fields = (next value).run rest := by
  rw [StateT.run_bind, hreader]
  rfl

theorem run_bind_of_error {fault : FieldFault} (hreader : reader.run fields = .error fault) :
    (reader >>= next).run fields = .error fault := by
  rw [StateT.run_bind, hreader]
  rfl

theorem run_optional (name : String) (fields : TextMap) :
    (optional name).run fields = .ok (fields[name]?, without [name] fields) := by
  rw [← erase_eq_without]
  rfl

theorem run_required {text : String} (hgiven : fields[name]? = some text) :
    (required name).run fields = .ok (text, without [name] fields) := by
  rw [required, run_bind_of_ok (run_optional name fields), hgiven]
  rfl

theorem run_required_of_missing (hmissing : name ∉ fields) :
    (required name).run fields = .error (.missing name) := by
  rw [required, run_bind_of_ok (run_optional name fields),
    Std.ExtTreeMap.getElem?_eq_none hmissing]
  rfl

theorem run_path {text : String} (hgiven : fields[name]? = some text) :
    (path name).run fields = .ok (⟨text⟩, without [name] fields) := by
  rw [path, run_bind_of_ok (run_required hgiven)]
  rfl

theorem run_seconds {number : Option Nat}
    (hnumber : Option.Rel IsSeconds fields[name]? number) :
    (seconds name).run fields = .ok (number, without [name] fields) := by
  rw [seconds, run_bind_of_ok (run_optional name fields)]
  revert hnumber
  generalize fields[name]? = given
  rintro (⟨hseconds⟩ | _)
  · dsimp only
    rw [Text.readNumber_eq_ok_iff.2 (isSeconds_iff.1 hseconds)]
    rfl
  · rfl

theorem run_seconds_of_not {text : String} (hgiven : fields[name]? = some text)
    (hnot : ¬ ∃ number, IsSeconds text number) :
    (seconds name).run fields = .error (.notSeconds text) := by
  rw [seconds, run_bind_of_ok (run_optional name fields), hgiven]
  dsimp only
  cases hread : Text.readNumber (Text.trim text) with
  | ok number => exact absurd ⟨number, isSeconds_iff.2 (Text.readNumber_eq_ok_iff.1 hread)⟩ hnot
  | error fault => rfl

theorem run_finish (fields : TextMap) :
    finish.run fields =
      if fields.isEmpty then .ok ((), fields) else .error (.unexpected fields.keys) := by
  have hget : (get : FieldReader TextMap).run fields = .ok (fields, fields) := rfl
  rw [finish, run_bind_of_ok hget]
  split <;> rfl

theorem run_finish_of_empty (hempty : ∀ name, name ∉ fields) :
    finish.run fields = .ok ((), fields) := by
  have hisEmpty : fields.isEmpty = true := by
    rw [Std.ExtTreeMap.isEmpty_iff]
    apply Std.ExtTreeMap.ext_getElem?
    intro name
    simp [Std.ExtTreeMap.getElem?_eq_none (hempty name)]
  rw [run_finish, if_pos hisEmpty]

/-- What is left over is reported in ascending order. -/
theorem run_finish_of_names {names : List String} (hnonempty : names ≠ [])
    (hordered : names.Pairwise (· < ·)) (hnames : ∀ name, name ∈ names ↔ name ∈ fields) :
    finish.run fields = .error (.unexpected names) := by
  have hkeys : fields.keys = names := by
    have hpairwise : fields.keys.Pairwise (· < ·) :=
      Std.ExtTreeMap.ordered_keys.imp compare_lt_iff_lt.1
    apply hpairwise.eq_of_mem_iff hordered
    intro name
    rw [hnames, Std.ExtTreeMap.mem_keys]
  have hisEmpty : fields.isEmpty = false := by
    rw [← Std.ExtTreeMap.isEmpty_keys, hkeys, List.isEmpty_eq_false_iff]
    exact hnonempty
  rw [run_finish, hisEmpty, hkeys]
  rfl

end Runs

/-! ### Material -/

/-- What the material of a kind is built with. -/
def materialReader : CredentialKind → FieldReader Material
  | .gridProxy => readGridProxy
  | .certPair => readCertPair
  | .keyPair => readKeyPair
  | .usernamePassword => readUsernamePassword
  | .authFile => readAuthFile
  | .sciToken => readSciToken

/-- No kind is without a constructor. -/
theorem lookup_constructors (kind : CredentialKind) :
    constructors.lookup kind = some (materialReader kind) := by
  cases kind <;> rfl

section Materials

variable {fields : TextMap}

theorem run_gridProxy {location : String} (hlocation : fields["cred_loc"]? = some location) :
    readGridProxy.run fields = .ok (.gridProxy ⟨location⟩, without ["cred_loc"] fields) := by
  rw [readGridProxy, run_bind_of_ok (run_path hlocation)]
  rfl

theorem run_sciToken {location : String} (hlocation : fields["cred_loc"]? = some location) :
    readSciToken.run fields = .ok (.sciToken ⟨location⟩, without ["cred_loc"] fields) := by
  rw [readSciToken, run_bind_of_ok (run_path hlocation)]
  rfl

theorem run_certPair {cert key : String} (hcert : fields["cert"]? = some cert)
    (hkey : fields["certkey"]? = some key) :
    readCertPair.run fields =
      .ok (.certPair ⟨cert⟩ ⟨key⟩, without ["cert", "certkey"] fields) := by
  rw [← getElem?_without_of_notMem ["cert"] (by decide)] at hkey
  rw [readCertPair, run_bind_of_ok (run_path hcert), run_bind_of_ok (run_path hkey),
    without_without]
  rfl

theorem run_keyPair {publicKey privateKey : String}
    (hpublic : fields["pub_key"]? = some publicKey)
    (hprivate : fields["priv_key"]? = some privateKey) :
    readKeyPair.run fields = .ok (.keyPair ⟨publicKey⟩ ⟨privateKey⟩ fields["rem_user"]?,
      without ["pub_key", "priv_key", "rem_user"] fields) := by
  rw [← getElem?_without_of_notMem ["pub_key"] (by decide)] at hprivate
  rw [readKeyPair, run_bind_of_ok (run_path hpublic), run_bind_of_ok (run_path hprivate),
    without_without, run_bind_of_ok (run_optional _ _), without_without,
    getElem?_without_of_notMem _ (by decide)]
  rfl

theorem run_usernamePassword {username password : String}
    (husername : fields["username"]? = some username)
    (hpassword : fields["password"]? = some password) :
    readUsernamePassword.run fields =
      .ok (.usernamePassword username password, without ["username", "password"] fields) := by
  rw [← getElem?_without_of_notMem ["username"] (by decide)] at hpassword
  rw [readUsernamePassword, run_bind_of_ok (run_required husername),
    run_bind_of_ok (run_required hpassword), without_without]
  rfl

theorem run_authFile {file : String} (hfile : fields["file"]? = some file) :
    readAuthFile.run fields =
      .ok (.authFile ⟨file⟩ fields["rem_user"]?, without ["file", "rem_user"] fields) := by
  rw [readAuthFile, run_bind_of_ok (run_path hfile), run_bind_of_ok (run_optional _ _),
    without_without, getElem?_without_of_notMem _ (by decide)]
  rfl

theorem exists_text {name : String} (hgiven : name ∈ fields) :
    ∃ text, fields[name]? = some text :=
  Option.isSome_iff_exists.1 (Std.ExtTreeMap.mem_iff_isSome_getElem?.1 hgiven)

/-- A constructor that finds what its kind requires takes that and what is
optional, and no other field. -/
theorem run_material {kind : CredentialKind}
    (hcomplete : ∀ name ∈ kind.requiredFields, name ∈ fields) :
    ∃ material : Material, material.kind = kind ∧
      (∀ entry ∈ material.entries, fields[entry.1]? = entry.2) ∧
      (materialReader kind).run fields =
        .ok (material, without (kind.requiredFields ++ kind.optionalFields) fields) := by
  cases kind with
  | gridProxy =>
    obtain ⟨location, hlocation⟩ := exists_text (hcomplete "cred_loc" (by decide))
    exact ⟨_, rfl, by simp [Material.entries, hlocation], run_gridProxy hlocation⟩
  | certPair =>
    obtain ⟨cert, hcert⟩ := exists_text (hcomplete "cert" (by decide))
    obtain ⟨key, hkey⟩ := exists_text (hcomplete "certkey" (by decide))
    exact ⟨_, rfl, by simp [Material.entries, hcert, hkey], run_certPair hcert hkey⟩
  | keyPair =>
    obtain ⟨publicKey, hpublic⟩ := exists_text (hcomplete "pub_key" (by decide))
    obtain ⟨privateKey, hprivate⟩ := exists_text (hcomplete "priv_key" (by decide))
    exact ⟨_, rfl, by simp [Material.entries, hpublic, hprivate], run_keyPair hpublic hprivate⟩
  | usernamePassword =>
    obtain ⟨username, husername⟩ := exists_text (hcomplete "username" (by decide))
    obtain ⟨password, hpassword⟩ := exists_text (hcomplete "password" (by decide))
    exact ⟨_, rfl, by simp [Material.entries, husername, hpassword],
      run_usernamePassword husername hpassword⟩
  | authFile =>
    obtain ⟨file, hfile⟩ := exists_text (hcomplete "file" (by decide))
    exact ⟨_, rfl, by simp [Material.entries, hfile], run_authFile hfile⟩
  | sciToken =>
    obtain ⟨location, hlocation⟩ := exists_text (hcomplete "cred_loc" (by decide))
    exact ⟨_, rfl, by simp [Material.entries, hlocation], run_sciToken hlocation⟩

end Materials

/-! ### What all kinds share -/

/-- The shared fields that are read before the number of seconds. -/
def leadingFields : List String := ["sec_class", "trust_dom", "vm_id", "vm_type", "pilot_proxy"]

section Shared

variable {rest : TextMap} {securityClass trustDomain : String}

theorem run_cloud (rest : TextMap) :
    readCloud.run rest =
      .ok (⟨rest["vm_id"]?, rest["vm_type"]?, rest["pilot_proxy"]?⟩,
        without ["vm_id", "vm_type", "pilot_proxy"] rest) := by
  rw [readCloud, run_bind_of_ok (run_optional _ _), run_bind_of_ok (run_optional _ _),
    without_without, run_bind_of_ok (run_optional _ _), without_without,
    getElem?_without_of_notMem _ (by decide), getElem?_without_of_notMem _ (by decide)]
  rfl

/-- All that the reading of shared fields depends on, once the demanded ones are
there: the number of seconds, and what is left over at the end. -/
theorem run_shared (material : Material) (hclass : rest["sec_class"]? = some securityClass)
    (hdomain : rest["trust_dom"]? = some trustDomain) :
    (readShared material).run rest =
      (do
        let updateFrequency ← seconds "update_freq"
        let creationScript ← optional "creation_script"
        finish
        return { securityClass, trustDomain, material
                 cloud := ⟨rest["vm_id"]?, rest["vm_type"]?, rest["pilot_proxy"]?⟩
                 renewal := { creationScript, updateFrequency } } : FieldReader Credential).run
        (without leadingFields rest) := by
  rw [← getElem?_without_of_notMem ["sec_class"] (by decide)] at hdomain
  rw [readShared, run_bind_of_ok (run_required hclass), run_bind_of_ok (run_required hdomain),
    without_without, run_bind_of_ok (run_cloud _), without_without,
    getElem?_without_of_notMem _ (by decide), getElem?_without_of_notMem _ (by decide),
    getElem?_without_of_notMem _ (by decide)]
  rfl

variable (material : Material) {number : Option Nat}

theorem run_shared_of_nothing_left (hclass : rest["sec_class"]? = some securityClass)
    (hdomain : rest["trust_dom"]? = some trustDomain)
    (hnumber : Option.Rel IsSeconds rest["update_freq"]? number)
    (hnothing : ∀ name ∈ rest, name ∈ sharedFields) :
    (readShared material).run rest =
      .ok ({ securityClass, trustDomain, material
             cloud := ⟨rest["vm_id"]?, rest["vm_type"]?, rest["pilot_proxy"]?⟩
             renewal := ⟨rest["creation_script"]?, number⟩ },
        without sharedFields rest) := by
  rw [← getElem?_without_of_notMem leadingFields (by decide)] at hnumber
  have hempty : ∀ name, name ∉ without sharedFields rest := by
    intro name hname
    obtain ⟨hgiven, hother⟩ := mem_without_iff.1 hname
    exact hother (hnothing name hgiven)
  rw [run_shared material hclass hdomain, run_bind_of_ok (run_seconds hnumber), without_without,
    run_bind_of_ok (run_optional _ _), without_without, getElem?_without_of_notMem _ (by decide)]
  exact run_bind_of_ok (run_finish_of_empty hempty)

theorem run_shared_of_not_seconds (hclass : rest["sec_class"]? = some securityClass)
    (hdomain : rest["trust_dom"]? = some trustDomain) {text : String}
    (hgiven : rest["update_freq"]? = some text) (hnot : ¬ ∃ number, IsSeconds text number) :
    (readShared material).run rest = .error (.notSeconds text) := by
  rw [← getElem?_without_of_notMem leadingFields (by decide)] at hgiven
  rw [run_shared material hclass hdomain]
  exact run_bind_of_error (run_seconds_of_not hgiven hnot)

theorem run_shared_of_names (hclass : rest["sec_class"]? = some securityClass)
    (hdomain : rest["trust_dom"]? = some trustDomain)
    (hnumber : Option.Rel IsSeconds rest["update_freq"]? number) {names : List String}
    (hnonempty : names ≠ []) (hordered : names.Pairwise (· < ·))
    (hnames : ∀ name, name ∈ names ↔ name ∈ rest ∧ name ∉ sharedFields) :
    (readShared material).run rest = .error (.unexpected names) := by
  rw [← getElem?_without_of_notMem leadingFields (by decide)] at hnumber
  have hleft : ∀ name, name ∈ names ↔ name ∈ without sharedFields rest := by
    intro name
    rw [hnames, mem_without_iff]
  rw [run_shared material hclass hdomain, run_bind_of_ok (run_seconds hnumber), without_without,
    run_bind_of_ok (run_optional _ _), without_without]
  exact run_bind_of_error (run_finish_of_names hnonempty hordered hleft)

end Shared

/-! ### Missing fields -/

/-- The reader asks for the fields of these names, in this order, before
anything else can fail. -/
def Demands {α : Type} (reader : FieldReader α) (names : List String) : Prop :=
  ∀ fields before name after, names = before ++ name :: after →
    (∀ earlier ∈ before, earlier ∈ fields) → name ∉ fields →
    reader.run fields = .error (.missing name)

namespace Demands

variable {α : Type} {name : String} {names : List String}

theorem nil {reader : FieldReader α} : Demands reader [] := by
  intro fields before name after hsplit
  simp at hsplit

/-- Taking a field that is not among the demanded ones hides none of these. -/
theorem run_without {reader : FieldReader α} (hreader : Demands reader names)
    (hfresh : name ∉ names) {fields : TextMap} {before after : List String} {missing : String}
    (hsplit : names = before ++ missing :: after) (hbefore : ∀ earlier ∈ before, earlier ∈ fields)
    (hmissing : missing ∉ fields) :
    reader.run (without [name] fields) = .error (.missing missing) := by
  apply hreader _ before missing after hsplit
  · intro earlier hearlier
    refine mem_without_iff.2 ⟨hbefore earlier hearlier, ?_⟩
    rw [List.mem_singleton]
    rintro rfl
    exact hfresh (by simp [hsplit, hearlier])
  · intro hmem
    exact hmissing (mem_without_iff.1 hmem).1

theorem optional_bind {next : Option String → FieldReader α}
    (hnext : ∀ text, Demands (next text) names) (hfresh : name ∉ names) :
    Demands (optional name >>= next) names := by
  intro fields before missing after hsplit hbefore hmissing
  rw [run_bind_of_ok (run_optional name fields)]
  exact (hnext _).run_without hfresh hsplit hbefore hmissing

theorem required_bind {next : String → FieldReader α}
    (hnext : ∀ text, Demands (next text) names) (hfresh : name ∉ names) :
    Demands (required name >>= next) (name :: names) := by
  intro fields before missing after hsplit hbefore hmissing
  cases before with
  | nil =>
    obtain ⟨rfl, -⟩ := List.cons_eq_cons.1 hsplit
    exact run_bind_of_error (run_required_of_missing hmissing)
  | cons first before =>
    obtain ⟨rfl, htail⟩ := List.cons_eq_cons.1 hsplit
    rw [List.forall_mem_cons] at hbefore
    obtain ⟨text, hgiven⟩ := exists_text hbefore.1
    rw [run_bind_of_ok (run_required hgiven)]
    exact (hnext _).run_without hfresh htail hbefore.2 hmissing

theorem path_bind {next : Path → FieldReader α} (hnext : ∀ location, Demands (next location) names)
    (hfresh : name ∉ names) : Demands (path name >>= next) (name :: names) := by
  rw [path, bind_assoc]
  simp only [pure_bind]
  exact required_bind (fun _ => hnext _) hfresh

end Demands

theorem demands_readShared (material : Material) :
    Demands (readShared material) ["sec_class", "trust_dom"] :=
  .required_bind (fun _ => .required_bind (fun _ => .nil) (by decide)) (by decide)

/-- The constructor of a kind asks for what the kind requires, and what all kinds
share is asked for after that. -/
theorem demands_materialReader (kind : CredentialKind) :
    Demands (materialReader kind >>= readShared) (demandedFields kind) := by
  cases kind with
  | gridProxy =>
    simp only [materialReader, readGridProxy, bind_assoc, pure_bind]
    exact .path_bind (fun _ => demands_readShared _) (by decide)
  | certPair =>
    simp only [materialReader, readCertPair, bind_assoc, pure_bind]
    exact .path_bind (fun _ => .path_bind (fun _ => demands_readShared _) (by decide)) (by decide)
  | keyPair =>
    simp only [materialReader, readKeyPair, bind_assoc, pure_bind]
    exact .path_bind (fun _ => .path_bind (fun _ => .optional_bind
      (fun _ => demands_readShared _) (by decide)) (by decide)) (by decide)
  | usernamePassword =>
    simp only [materialReader, readUsernamePassword, bind_assoc, pure_bind]
    exact .required_bind (fun _ => .required_bind (fun _ => demands_readShared _) (by decide))
      (by decide)
  | authFile =>
    simp only [materialReader, readAuthFile, bind_assoc, pure_bind]
    exact .path_bind (fun _ => .optional_bind (fun _ => demands_readShared _) (by decide))
      (by decide)
  | sciToken =>
    simp only [materialReader, readSciToken, bind_assoc, pure_bind]
    exact .path_bind (fun _ => demands_readShared _) (by decide)

end CredentialIntake.Credential
