import CredentialIntake.Authentication
import CredentialIntake.Store.Basic

/-!
# Plans

Before anything is written, a request is authenticated, all its credentials are
decrypted, and a local user is found for each. The result is a plan: what will be
written and what the report will say, or the error that gives the request up. A
credential whose security class stands for no user is left out; any other fault
gives up the whole request. The plan does not look at the files.
-/

namespace CredentialIntake.Intake

/-- What the factory decides requests by. -/
structure Factory where
  /-- The private key, if the factory has one. -/
  key : Option FactoryKey
  policy : FrontendPolicy

def Factory.requireKey (factory : Factory) : Except IntakeError FactoryKey :=
  match factory.key with
  | some key => .ok key
  | none => .error (.configuration .missingFactoryKey)

/-- A credential that was kept, with its user and its files. -/
structure PersistedCredential where
  id : String
  username : String
  files : Store.CredentialFiles
  deriving DecidableEq

/-- The result of a request. -/
structure Report where
  client : String
  securityName : String
  persisted : List PersistedCredential
  /-- The credentials left out, each with the reason. -/
  skipped : List IntakeError
  deriving DecidableEq

/-- A credential that is decrypted and mapped to a user. -/
structure Staged where
  id : String
  username : String
  material : Bytes
  deriving DecidableEq

/-- What becomes of one credential of a request. -/
inductive Disposition where
  | staged (credential : Staged)
  | skipped (error : IntakeError)
  deriving DecidableEq

/-- The dispositions of the credentials looked at, and the fault that ended the
looking, if one did. -/
structure Staging where
  dispositions : List Disposition
  fault : Option IntakeError

/-- An attribute a request must have. -/
def requireAttribute (ad : ClassAd) (key : String) : Except IntakeError String :=
  match ad.get? key with
  | some value => .ok value
  | none => .error (.malformedRequest (.missingAttribute key))

/-- Decrypts an attribute. -/
def decrypted {α : Type} (key : String) (plaintext : Option α) : Except IntakeError α :=
  match plaintext with
  | some value => .ok value
  | none => .error (.authentication (.undecryptable key))

/-- Decrypts one credential and finds its user. -/
def stage (policy : FrontendPolicy) (frontend : AuthenticatedFrontend) (ad : ClassAd)
    (client id : String) : Except IntakeError Disposition := do
  let materialKey := ClassAd.parameterKey id
  let material ← decrypted materialKey
    (frontend.key.decrypt? (← requireAttribute ad materialKey))
  let classKey := ClassAd.securityClassKey id
  let securityClass ← decrypted classKey
    (frontend.key.decryptText? (← requireAttribute ad classKey))
  match policy.usernameOf? frontend.securityName securityClass with
  | some username => return .staged { id, username, material }
  | none => return .skipped (.mapping client id securityClass)

/-- Stages credentials one after the other, up to the first fault. -/
def stageAll (policy : FrontendPolicy) (frontend : AuthenticatedFrontend) (ad : ClassAd)
    (client : String) : List String → Staging
  | [] => ⟨[], none⟩
  | id :: rest =>
    match stage policy frontend ad client id with
    | .error error => ⟨[], some error⟩
    | .ok disposition =>
      let later := stageAll policy frontend ad client rest
      { later with dispositions := disposition :: later.dispositions }

def Disposition.staged? : Disposition → Option Staged
  | staged credential => some credential
  | skipped _ => none

def Disposition.skipped? : Disposition → Option IntakeError
  | staged _ => none
  | skipped error => some error

namespace Staging

def staged (staging : Staging) : List Staged := staging.dispositions.filterMap (·.staged?)

def skipped (staging : Staging) : List IntakeError := staging.dispositions.filterMap (·.skipped?)

end Staging

/-- What a request comes to before anything is written: the credentials left out
so far, and either the report with the files to write, or the error. -/
structure Plan where
  skipped : List IntakeError
  decision : Except IntakeError (Report × List FileWrite)

namespace Plan

/-- The plan that gives up at once. -/
def refuse (error : IntakeError) : Plan := ⟨[], .error error⟩

/-- The files of the staged credentials, in their order. -/
def persisted (directoryOf : String → Path) (client : String) (staged : List Staged) :
    List PersistedCredential :=
  staged.map fun credential =>
    { id := credential.id
      username := credential.username
      files := Store.filesOf directoryOf credential.username client credential.id }

/-- The writes for the staged credentials, in their order. -/
def writes (directoryOf : String → Path) (client : String) (staged : List Staged) :
    List FileWrite :=
  staged.flatMap fun credential =>
    Store.writesFor (Store.filesOf directoryOf credential.username client credential.id)
      credential.material

/-- The plan for staged credentials. The client name matters only if there is
something to keep. -/
def ofStaging (directoryOf : String → Path) (client securityName : String)
    (staging : Staging) : Plan where
  skipped := staging.skipped
  decision :=
    match staging.fault with
    | some error => .error error
    | none =>
      if staging.staged.isEmpty || Store.isSafeName client then
        .ok
          ({ client, securityName
             persisted := persisted directoryOf client staging.staged
             skipped := staging.skipped },
            writes directoryOf client staging.staged)
      else .error (.malformedRequest (.unsafeClientName client))

/-- The plan for a request. -/
def ofRequest (factory : Factory) (directoryOf : String → Path) (ad : ClassAd) : Plan :=
  match factory.requireKey with
  | .error error => refuse error
  | .ok key =>
    match authenticate key ad factory.policy with
    | .error error => refuse error
    | .ok frontend =>
      match requireAttribute ad ClassAd.clientName with
      | .error error => refuse error
      | .ok client =>
        ofStaging directoryOf client frontend.securityName
          (stageAll factory.policy frontend ad client ad.credentialIds)

end Plan

end CredentialIntake.Intake
