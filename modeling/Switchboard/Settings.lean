import Switchboard.Fault
/-! # Settings

The service is set up by named settings. Each has a default and is taken from the environment, where the
case of a name does not matter.
-/
namespace Switchboard

structure Settings where
  appHost : Text := "0.0.0.0"
  appPort : Int := 8000
  environment : Text := "dev"
  databaseUrl : Text := "sqlite:///./data/callflow.db"
  publicBaseUrl : Text := "http://localhost:8000"
  authToken : Option Text := none
  defaultVoice : Text := "alice"
  maxHops : Int := 25
  menuMaxAttempts : Int := 3
  menuTimeout : Int := 5
  forwardTimeout : Int := 30
  recordingDisclaimer : Text := "This call may be recorded for quality and training purposes."
  noFlowMessage : Text := "Thank you for calling. This number has not been set up yet. Goodbye."
  errorMessage : Text := "We are experiencing difficulties. Please try again later."
  logLevel : Text := "info"
deriving DecidableEq, Repr

namespace Settings

def read (base : Settings) (entries : Entries) : Reading Settings :=
  let text (name : Text) (absent : Text) := Reading.fieldOr entries name absent Reading.text
  let integer (name : Text) (absent : Int) := Reading.fieldOr entries name absent Reading.integer
  Settings.mk <$> text "APP_HOST" base.appHost
    <*> integer "APP_PORT" base.appPort
    <*> text "ENV" base.environment
    <*> text "DB_URL" base.databaseUrl
    <*> text "PUBLIC_BASE_URL" base.publicBaseUrl
    <*> Reading.fieldOr entries "TWILIO_AUTH_TOKEN" base.authToken (Reading.nullable Reading.text)
    <*> text "DEFAULT_VOICE" base.defaultVoice
    <*> integer "MAX_HOPS_PER_CALL" base.maxHops
    <*> integer "MENU_MAX_ATTEMPTS" base.menuMaxAttempts
    <*> integer "MENU_TIMEOUT_SECONDS" base.menuTimeout
    <*> integer "FORWARD_TIMEOUT_SECONDS" base.forwardTimeout
    <*> text "DEFAULT_RECORDING_DISCLAIMER" base.recordingDisclaimer
    <*> text "NO_FLOW_MESSAGE" base.noFlowMessage
    <*> text "ERROR_MESSAGE" base.errorMessage
    <*> text "LOG_LEVEL" base.logLevel

def toEntries (s : Settings) : Entries :=
  [("APP_HOST", .str s.appHost), ("APP_PORT", .int s.appPort), ("ENV", .str s.environment),
    ("DB_URL", .str s.databaseUrl), ("PUBLIC_BASE_URL", .str s.publicBaseUrl),
    ("TWILIO_AUTH_TOKEN", .ofText? s.authToken), ("DEFAULT_VOICE", .str s.defaultVoice),
    ("MAX_HOPS_PER_CALL", .int s.maxHops), ("MENU_MAX_ATTEMPTS", .int s.menuMaxAttempts),
    ("MENU_TIMEOUT_SECONDS", .int s.menuTimeout), ("FORWARD_TIMEOUT_SECONDS", .int s.forwardTimeout),
    ("DEFAULT_RECORDING_DISCLAIMER", .str s.recordingDisclaimer),
    ("NO_FLOW_MESSAGE", .str s.noFlowMessage), ("ERROR_MESSAGE", .str s.errorMessage),
    ("LOG_LEVEL", .str s.logLevel)]

def names : List Text :=
  (toEntries {}).map Prod.fst

def named? (name : Text) : Option Text :=
  names.find? fun setting =>
    name.plain?.any fun s => setting.plain?.any fun t => Text.lowercase t == Text.lowercase s

def override (base : Settings) (entries : Entries) : Reading Settings :=
  let entries := Entries.ofList (entries.map fun entry => ((named? entry.1).getD entry.1, entry.2))
  Reading.closed entries names (read base entries)

/-- The values of settings by name, with others in place of those that are there. The new values may be of
any kind, but every name has to be that of a setting. -/
def assigned (base : Settings) (entries : Entries) : Outcome Entries :=
  match entries.find? fun entry => !names.contains entry.1 with
  | some entry => .error (.unknownSetting entry.1)
  | none => .ok (base.toEntries.putAll entries)

/-- Settings with others in place of the given ones, under their own names. A value that a setting cannot
have leaves it as it is. -/
def assign (base : Settings) (entries : Entries) : Outcome Settings := do
  let values ← assigned base entries
  (read base (values.filter fun entry => (read base [entry]).isDone)).outcome

def fromEnvironment (environment : Entries) : Entries :=
  environment.filterMap fun entry => (named? entry.1).map fun name => (name, entry.2)

/-- The settings of an environment. Of several variables for one setting the last counts. -/
def ofEnvironment (environment : Entries) : Reading Settings :=
  read {} (Entries.ofList (fromEnvironment environment))

end Settings
end Switchboard
