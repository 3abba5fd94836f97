/-
  SearchGateway.Config.Settings

  The settings of the gateway.  They come from an optional JSON file in which every
  member may be left out; some variables of the environment go before the file.
-/
import SearchGateway.Json.Typed

namespace SearchGateway.Config

open SearchGateway.Json (Value)

/-- How the backend is reached. -/
structure BackendSettings where
  baseUrl : String := "https://api.hubapi.com"
  /-- The access token; without one no backend is configured. -/
  token : Option String := none
  timeoutSecs : Nat := 10
  deriving DecidableEq, Repr

/-- The settings of the gateway. -/
structure Settings where
  host : String := "0.0.0.0"
  port : Nat := 3000
  /-- The origins that may use the gateway from a browser; none listed means any. -/
  corsOrigins : List String := []
  logFilter : String := "info"
  backend : BackendSettings := {}
  deriving DecidableEq, Repr

/-! ## JSON -/

namespace BackendSettings

/-- The JSON object of the backend settings. -/
def toJson (settings : BackendSettings) : Value :=
  .object [
    ("base_url", .string settings.baseUrl),
    ("token", match settings.token with
      | none => .null
      | some token => .string token),
    ("timeout_secs", .ofNat settings.timeoutSecs)]

/-- The record of the backend settings. -/
def shape : Json.Shape BackendSettings where
  name := "CrmConfig"
  fields := [
    .optional "base_url" (fun _ => Json.string)
      fun baseUrl settings => { settings with baseUrl },
    .optional "token" (fun _ => Json.optional Json.string)
      fun token settings => { settings with token },
    .optional "timeout_secs" (fun _ => Json.natural 64 "u64")
      fun timeoutSecs settings => { settings with timeoutSecs }]
  initial := {}

end BackendSettings

namespace Settings

/-- The JSON object of the settings. -/
def toJson (settings : Settings) : Value :=
  .object [
    ("host", .string settings.host),
    ("port", .ofNat settings.port),
    ("cors_origins", .strings settings.corsOrigins),
    ("log_filter", .string settings.logFilter),
    ("crm", settings.backend.toJson)]

/-- The record of the settings. -/
def shape : Json.Shape Settings where
  name := "GatewayConfig"
  fields := [
    .optional "host" (fun _ => Json.string) fun host settings => { settings with host },
    .optional "port" (fun _ => Json.natural 16 "u16") fun port settings => { settings with port },
    .optional "cors_origins" (Json.list fun _ => Json.string)
      fun corsOrigins settings => { settings with corsOrigins },
    .optional "log_filter" (fun _ => Json.string)
      fun logFilter settings => { settings with logFilter },
    .optional "crm" BackendSettings.shape.read
      fun backend settings => { settings with backend }]
  initial := {}

/-- Reads settings from their text. -/
def parse (bytes : List UInt8) : Except Json.Fault Settings :=
  Json.read shape.read bytes

/-- The address to listen at, as it is written. -/
def address (settings : Settings) : String :=
  settings.host ++ ":" ++ String.ofList (Nat.toDigits 10 settings.port)

end Settings

end SearchGateway.Config
