/-
  SearchGateway.CommandLine.Run

  Running the program as a function of its arguments and surroundings: what it
  prints and the code with which it exits.
-/
import SearchGateway.CommandLine.Arguments
import SearchGateway.CommandLine.Error
import SearchGateway.Config.SocketAddress
import SearchGateway.Query.Search

namespace SearchGateway.CommandLine

open SearchGateway.Config (Environment File Settings SocketAddress)
open SearchGateway.Json (Value)
open SearchGateway.Query (Search SearchBody)

/-- What surrounds a run of the program. -/
structure Surroundings where
  /-- All of the input. -/
  input : List UInt8
  environment : Environment
  /-- What stands under the path of a file. -/
  file : String → File
  /-- Listens at an address until the server stops, and says why it stopped. -/
  listen : Settings → SocketAddress → String

/-- What a run of the program leaves. -/
structure Outcome where
  exit : Nat
  output : String := ""
  errors : String := ""
  deriving DecidableEq, Repr

/-! ## Translating and validating -/

/-- Why a search is not printed. -/
structure Rejection where
  code : String
  message : String
  deriving DecidableEq, Repr

namespace Rejection

/-- The rejection of a search. -/
def ofQuery (error : Query.QueryError) : Rejection :=
  ⟨error.code, error.message⟩

/-- The rejection of a body that is no search; the line and column of its fault are left out. -/
def ofFault (fault : Json.Fault) : Rejection :=
  ⟨"CRM_GATEWAY_INVALID_BODY", "Invalid request body: " ++ fault.message⟩

/-- The JSON object of a rejection. -/
def toJson (rejection : Rejection) : Value :=
  .object [
    ("status", .string "error"),
    ("code", .string rejection.code),
    ("message", .string rejection.message)]

end Rejection

/-- The search that query text asks for. -/
def translateText (raw : String) : Except Rejection Search :=
  (Query.translate raw).mapError .ofQuery

/-- Reads a search body from text; a text of whitespace asks for nothing in particular. -/
def parseSearchText (body : String) : Except Rejection SearchBody :=
  if Text.isBlank body.toList then .ok {}
  else (SearchBody.parse (Text.Utf8.ofString body)).mapError .ofFault

/-- The search that a text asks for in a collection.  The collection is looked at before the text. -/
def validateText (collection body : String) : Except Rejection Search :=
  match Query.resolveCollection collection with
  | .error e => .error (.ofQuery e)
  | .ok _ =>
    match parseSearchText body with
    | .error e => .error e
    | .ok searchBody => (Query.validate collection searchBody).mapError .ofQuery

/-! ## Printing -/

/-- The line of a value: its members sorted by key, and a line end. -/
def line (v : Value) : String :=
  v.sorted.print ++ "\n"

/-- The JSON object of a search. -/
def searchJson (search : Search) : Value :=
  .object [
    ("status", .string "ok"),
    ("data", .object [
      ("collection", .string search.collection.id),
      ("request", search.request.toJson)])]

/-- The outcome of an error. -/
def Outcome.ofError (error : CommandError) : Outcome where
  exit := 1
  errors := error.display ++ "\n"

/-- The outcome of a search that is accepted or rejected. -/
def report : Except Rejection Search → Outcome
  | .ok search => { exit := 0, output := line (searchJson search) }
  | .error rejection =>
    { Outcome.ofError ⟨.rejected, rejection.message⟩ with output := line rejection.toJson }

/-! ## Commands -/

/-- Goes on with the text of the input. -/
def withInput (bytes : List UInt8) (next : String → Outcome) : Outcome :=
  match Text.Utf8.decode? bytes with
  | none => .ofError (.ofIo Config.notUtf8)
  | some cs => next (String.ofList cs)

/-- Serves the gateway.  A server runs until something stops it, so every outcome is an error. -/
def serve (surroundings : Surroundings) (path : String) : Outcome :=
  match Config.load path (surroundings.file path) surroundings.environment with
  | .error e => .ofError (.ofConfig e)
  | .ok settings =>
    let reason :=
      match SocketAddress.ofText? settings.address with
      | none => "Invalid socket address: invalid socket address syntax"
      | some address => surroundings.listen settings address
    .ofError ⟨.serve, "HTTP server failed: " ++ reason⟩

/-- Whether a command reads the input. -/
def Command.readsInput : Command → Bool
  | serve _ | translate (some _) => false
  | translate none | validate _ => true

/-- Runs a command. -/
def Command.run (surroundings : Surroundings) : Command → Outcome
  | serve path => CommandLine.serve surroundings path
  | translate (some query) => report (translateText query)
  | translate none => withInput surroundings.input fun text => report (translateText text)
  | validate collection =>
    withInput surroundings.input fun text => report (validateText collection text)

/-- The line that names the program and its version. -/
def versionLine : String := "crmgate 0.1.0\n"

/-- How the program is used. -/
def usage : String :=
  "Usage: crmgate serve [--config PATH] | translate [--query TEXT] | validate COLLECTION\n"

/-- Runs the program. -/
def run (surroundings : Surroundings) (arguments : List String) : Outcome :=
  match Invocation.ofArguments arguments with
  | .run command => command.run surroundings
  | .version => { exit := 0, output := versionLine }
  | .help => { exit := 0, output := usage }
  | .invalid => { exit := 2, errors := usage }

end SearchGateway.CommandLine
