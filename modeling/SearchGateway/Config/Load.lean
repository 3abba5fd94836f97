/-
  SearchGateway.Config.Load

  Loading the settings: what the file says first, then what the environment says.
-/
import SearchGateway.Config.Settings
import SearchGateway.Text.Utf8

namespace SearchGateway.Config

/-- Why settings cannot be loaded. -/
inductive ConfigError where
  /-- The file cannot be read. -/
  | unreadable (path reason : String)
  /-- The file does not hold settings. -/
  | invalid (path : String) (fault : Json.Fault)
  /-- The port of the environment is none. -/
  | invalidPort (value : String)
  deriving DecidableEq, Repr

namespace ConfigError

/-- The wording of an error.  The line and column of a fault in the file are left out. -/
def message : ConfigError → String
  | unreadable path reason => "Failed to read config " ++ path ++ ": " ++ reason
  | invalid path fault => "Invalid config " ++ path ++ ": " ++ fault.message
  | invalidPort value => "Invalid PORT value: " ++ value

end ConfigError

/-- What stands under the path of a file. -/
inductive File where
  | missing
  | content (bytes : List UInt8)
  /-- Something that cannot be read as a file. -/
  | unreadable (reason : String)
  deriving DecidableEq, Repr

/-- The reason that a file cannot be read as text. -/
def notUtf8 : String :=
  "stream did not contain valid UTF-8"

/-- The settings of a file; a missing file has the default ones. -/
def ofFile (path : String) : File → Except ConfigError Settings
  | .missing => .ok {}
  | .unreadable reason => .error (.unreadable path reason)
  | .content bytes =>
    match Text.Utf8.decode? bytes with
    | none => .error (.unreadable path notUtf8)
    | some _ => (Settings.parse bytes).mapError (.invalid path)

/-- Looks up a variable of the environment. -/
abbrev Environment : Type := String → Option String

/-- The port that a text writes: ASCII digits, of which the first may follow a plus sign, with a
    value of 16 bits. -/
def portOfText? (text : String) : Option Nat :=
  let digits := match text.toList with
    | '+' :: digits => digits
    | cs => cs
  if digits.isEmpty || !digits.all Char.isDigit then none
  else
    let port := digits.foldl (fun n c => n * 10 + (c.toNat - 48)) 0
    if port < UInt16.size then some port else none

/-- The port that the environment sets, or else the given one. -/
def portOver (port : Nat) : (written : Option String) → Except ConfigError Nat
  | none => .ok port
  | some text =>
    match portOfText? text with
    | some port => .ok port
    | none => .error (.invalidPort text)

/-- Puts the variables of the environment over some settings. -/
def Settings.withEnvironment (settings : Settings) (lookup : Environment) :
    Except ConfigError Settings :=
  match portOver settings.port (lookup "PORT") with
  | .error e => .error e
  | .ok port =>
    .ok { settings with
      port
      backend := { settings.backend with
        token := (lookup "HUBSPOT_PRIVATE_APP_TOKEN").or settings.backend.token
        baseUrl := (lookup "HUBSPOT_BASE_URL").getD settings.backend.baseUrl } }

/-- Loads the settings from a file and the environment. -/
def load (path : String) (file : File) (lookup : Environment) : Except ConfigError Settings :=
  match ofFile path file with
  | .error e => .error e
  | .ok settings => settings.withEnvironment lookup

end SearchGateway.Config
