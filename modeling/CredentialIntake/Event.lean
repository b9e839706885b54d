import CredentialIntake.Error
import CredentialIntake.Generator.Basic

/-!
# Events

What the intake reports to its operators while it works, apart from the answers
it gives. Every event has a level, the part of the intake it comes from, and a
text.
-/

namespace CredentialIntake

inductive Event where
  /-- One credential of a request was left out. -/
  | credentialSkipped (error : IntakeError)
  /-- A request was given up. -/
  | requestAborted (client : Option String) (error : IntakeError)
  /-- A batch was not begun. -/
  | batchRefused (requests : Nat) (error : IntakeError)
  | batchDone (requests succeeded failed persisted : Nat)
  /-- A file was replaced without a copy of what it held; `failures` counts how
  often that has happened so far. -/
  | backupNotKept (path : Path) (failures : Nat)
  /-- A request breaks the credential contract. -/
  | contractBroken (client entry : String) (breach : ContractBreach)
  /-- A request was let through although no method of the entry is known. -/
  | unknownMethodAllowed (client entry method : String)
  /-- A configured generator is not there. -/
  | generatorUnavailable (name : String)
  | generationFailed (error : GeneratorError)
  | generatorCrashed (name : String)
  /-- A configured token file is there, but is no readable text. -/
  | tokenUnreadable (path : Path) (fault : FileFault)
  deriving DecidableEq

namespace Event

inductive Level where
  | info
  | warn
  | error
  deriving DecidableEq, Repr

def level : Event → Level
  | credentialSkipped _ => .error
  | requestAborted .. => .error
  | batchRefused .. => .error
  | batchDone .. => .info
  | tokenUnreadable .. => .error
  | _ => .warn

/-- The part of the intake an event comes from. -/
def target : Event → String
  | credentialSkipped _ => "glidecred::process"
  | requestAborted .. => "glidecred::process"
  | batchRefused .. => "glidecred::process"
  | batchDone .. => "glidecred::process"
  | backupNotKept .. => "glidecred::store"
  | contractBroken .. => "glidecred::validator"
  | unknownMethodAllowed .. => "glidecred::validator"
  | generatorUnavailable _ => "glidecred::generator"
  | generationFailed _ => "glidecred::generator"
  | generatorCrashed _ => "glidecred::generator"
  | tokenUnreadable .. => "glidecred::descript"

def message : Event → String
  | credentialSkipped error =>
    error.message ++ "; skipping it, verify the frontend security class mapping"
  | requestAborted client error =>
    "error processing globals classad from client " ++ client.getD "<unknown>" ++ ": " ++
      error.message
  | batchRefused requests error =>
    s!"not processing {requests} globals classads: " ++ error.message
  | batchDone requests succeeded failed persisted =>
    s!"processed {requests} globals classads: {succeeded} ok, {failed} failed, " ++
      s!"{persisted} credentials persisted"
  | backupNotKept path failures =>
    "could not keep a backup copy of " ++ path.text ++
      s!" (backup failures so far: {failures})"
  | contractBroken client entry breach =>
    s!"request from {client} for entry {entry} rejected: " ++ breach.message
  | unknownMethodAllowed client entry method =>
    s!"none of the supported auth methods in '{method}' for entry {entry}; " ++
      s!"allowing request from {client}"
  | generatorUnavailable name => s!"failed to load credential generator plugin {name}"
  | generationFailed error => "failed to generate credential: " ++ error.message
  | generatorCrashed name => s!"credential generator plugin {name} panicked"
  | tokenUnreadable path fault =>
    "failed to read scitoken " ++ path.text ++ ": " ++ fault.message

end Event

end CredentialIntake
