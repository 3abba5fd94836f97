/-
  SearchGateway.Main

  The program: it gathers what surrounds a run, runs, and prints.
-/
import SearchGateway.CommandLine.Run

namespace SearchGateway

open SearchGateway.CommandLine (Command Invocation Surroundings)

/-- What stands under the path of a file. -/
def readFile (path : String) : IO Config.File := do
  try
    let bytes ← IO.FS.readBinFile path
    return .content bytes.toList
  catch
    | .noFileOrDirectory .. => return .missing
    | e => return .unreadable (toString e)

/-- All of the input. -/
def readInput : IO (List UInt8) := do
  let stdin ← IO.getStdin
  let bytes ← stdin.readBinToEnd
  return bytes.toList

/-- Gathers what a run of some arguments needs. -/
def gather (arguments : List String) : IO Surroundings := do
  let port ← IO.getEnv "PORT"
  let token ← IO.getEnv "HUBSPOT_PRIVATE_APP_TOKEN"
  let baseUrl ← IO.getEnv "HUBSPOT_BASE_URL"
  let (input, file) ← match Invocation.ofArguments arguments with
    | .run (.serve path) => do pure ([], ← readFile path)
    | .run command => do
      let input ← if command.readsInput then readInput else pure []
      pure (input, Config.File.missing)
    | _ => pure ([], .missing)
  return {
    input
    environment := fun name =>
      [("PORT", port), ("HUBSPOT_PRIVATE_APP_TOKEN", token), ("HUBSPOT_BASE_URL", baseUrl)].lookup
        name |>.join
    file := fun _ => file
    listen := fun _ address =>
      if address.isLocal then "no network on this host"
      else "Cannot assign requested address (os error 99)" }

end SearchGateway

/-- Runs the program and exits with its code. -/
def main (arguments : List String) : IO UInt32 := do
  let surroundings ← SearchGateway.gather arguments
  let outcome := SearchGateway.CommandLine.run surroundings arguments
  IO.print outcome.output
  IO.eprint outcome.errors
  return outcome.exit.toUInt32
