/-
  SearchGateway.Http.Target

  The targets of requests.  A target is sent as a path with what follows it, or as
  a whole address, of which scheme and authority come first.
-/
import SearchGateway.Text.Scan

namespace SearchGateway.Http.Target

/-- A character of a scheme. -/
def isSchemeChar (c : Char) : Bool :=
  c.isAlphanum || c == '+' || c == '-' || c == '.'

/-- What ends a path. -/
def endsPath (c : Char) : Bool :=
  c == '?' || c == '#'

/-- What ends an authority. -/
def endsAuthority (c : Char) : Bool :=
  c == '/' || endsPath c

/-- What follows the authority of a whole address. -/
def afterAuthority? (target : List Char) : Option (List Char) :=
  (Text.after? "://".toList (target.dropWhile isSchemeChar)).map fun rest =>
    rest.dropWhile fun c => !endsAuthority c

/-- The path that a target begins with. -/
def leadingPath (target : List Char) : List Char :=
  target.takeWhile fun c => !endsPath c

/-- The path of a target, without query and fragment.  The path of a whole address that names none is
    a slash. -/
def path (target : List Char) : List Char :=
  match afterAuthority? target with
  | none => leadingPath target
  | some rest => if (leadingPath rest).isEmpty then ['/'] else leadingPath rest

end SearchGateway.Http.Target
