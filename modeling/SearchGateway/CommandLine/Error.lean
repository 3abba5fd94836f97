/-
  SearchGateway.CommandLine.Error

  Why the program stops with an error.
-/
import SearchGateway.Config.Load

namespace SearchGateway.CommandLine

/-- The kind of an error. -/
inductive ErrorKind where
  /-- The settings cannot be loaded. -/
  | config
  /-- Input cannot be read or output written. -/
  | io
  /-- The input is read and rejected. -/
  | rejected
  /-- The server cannot be started. -/
  | serve
  deriving DecidableEq, Repr

namespace ErrorKind

/-- The name of a kind. -/
def name : ErrorKind → String
  | config => "ConfigError"
  | io => "IoError"
  | rejected => "Rejected"
  | serve => "ServeFailed"

/-- The stable code of a kind. -/
def code : ErrorKind → String
  | config => "CRM_CLI_CONFIG_ERROR"
  | io => "CRM_CLI_IO_ERROR"
  | rejected => "CRM_CLI_REJECTED"
  | serve => "CRM_CLI_SERVE_FAILED"

end ErrorKind

/-- Why the program stops with an error. -/
structure CommandError where
  kind : ErrorKind
  message : String
  deriving DecidableEq, Repr

namespace CommandError

/-- An error as it is shown: the code and the message. -/
def display (error : CommandError) : String :=
  error.kind.code ++ ": " ++ error.message

/-- The error of settings that cannot be loaded. -/
def ofConfig (error : Config.ConfigError) : CommandError :=
  ⟨.config, error.message⟩

/-- The error of JSON that cannot be read; the line and column of its fault are left out. -/
def ofJson (fault : Json.Fault) : CommandError :=
  ⟨.io, "JSON error: " ++ fault.message⟩

/-- The error of input or output that fails. -/
def ofIo (reason : String) : CommandError :=
  ⟨.io, reason⟩

end CommandError

end SearchGateway.CommandLine
