import CredentialIntake.Json.Record
import CredentialIntake.Settings.Document
import CredentialIntake.Settings.UnknownMethods

/-!
# Factory configuration

The settings of one factory: where its users' credentials are kept, under which
name, and how requests are treated. They come from a JSON document, and single
settings can be overridden from the environment.
-/

namespace CredentialIntake

structure FactoryConfig where
  /-- The directory above the directories of all users. -/
  proxiesDir : Path
  /-- The name of the factory instance. -/
  glideinName : String
  /-- Whether a request that brings a SciToken is exempt from the contract. -/
  sciTokenPassthru : Bool := false
  unknownMethods : UnknownMethodPolicy := .allow
  /-- How many requests of a batch are processed side by side. -/
  workers : Nat := 1
  deriving BEq

namespace FactoryConfig

/-- The directory for the credentials of a user. -/
def credentialDir (config : FactoryConfig) (username : String) : Path :=
  (config.proxiesDir.join ("user_" ++ username)).join ("glidein_" ++ config.glideinName)

def ofJson? (value : Json.Value) : Option FactoryConfig := do
  match ← value.fields? ["client_proxies_base_dir", "glidein_name", "scitoken_passthru",
    "unknown_auth_method", "workers"] with
  | [proxiesDir, glideinName, sciTokenPassthru, unknownMethods, workers] =>
    return {
      proxiesDir := ⟨← Json.required? Json.Value.text? proxiesDir⟩
      glideinName := ← Json.required? Json.Value.text? glideinName
      sciTokenPassthru := ← Json.defaulted? false Json.Value.bool? sciTokenPassthru
      unknownMethods := ← Json.defaulted? .allow
        (Json.Value.choice? UnknownMethodPolicy.words) unknownMethods
      workers := ← Json.defaulted? 1 Json.Value.count? workers }
  | _ => none

/-- Reads a switch: four words turn it on, every other text off. -/
def readSwitch (text : String) : Bool :=
  ["1", "true", "yes", "on"].contains (Text.lowerCase (Text.trim text))

/-- Reads a number of workers, which is at least one. -/
def readWorkers (text : String) : Except SettingsError Nat :=
  match Text.readNumber (Text.trim text) with
  | .error fault => .error (.workersNotNumber text fault)
  | .ok count => .ok (max 1 count)

/-- A setting from the environment, if it is there. -/
def overridden {α : Type} (setting : α) (read : String → Except SettingsError α) :
    Option String → Except SettingsError α
  | none => .ok setting
  | some text => read text

/-- The configuration with the settings that the environment overrides. -/
def withEnvironment (config : FactoryConfig) (lookup : String → Option String) :
    Except SettingsError FactoryConfig := do
  let unknownMethods ←
    overridden config.unknownMethods UnknownMethodPolicy.read
      (lookup "GLIDECRED_UNKNOWN_AUTH_METHOD")
  let workers ← overridden config.workers readWorkers (lookup "GLIDECRED_WORKERS")
  return {
    proxiesDir := ((lookup "GLIDECRED_PROXIES_DIR").map Path.mk).getD config.proxiesDir
    glideinName := (lookup "GLIDECRED_GLIDEIN_NAME").getD config.glideinName
    sciTokenPassthru :=
      ((lookup "GLIDECRED_SCITOKEN_PASSTHRU").map readSwitch).getD config.sciTokenPassthru
    unknownMethods, workers }

/-- Loads the configuration from a file and applies the environment. -/
def load (tree : FileTree) (path : Path) (lookup : String → Option String) :
    Except SettingsError FactoryConfig := do
  (← loadDocument .factoryConfig ofJson? tree path).withEnvironment lookup

end FactoryConfig

end CredentialIntake
