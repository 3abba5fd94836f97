/-
  SearchGateway.Http.Url

  Absolute web addresses in normal form.  Reading an address lower-cases its scheme
  and host, drops a default port, resolves `.` and `..` in its path and escapes the
  characters that may not stand in a path, a query or a fragment.
-/
import SearchGateway.Text.Percent
import SearchGateway.Text.Scan

namespace SearchGateway.Http

/-- A scheme of the web. -/
inductive Scheme where
  | http
  | https
  deriving DecidableEq, Repr

namespace Scheme

/-- The name of a scheme. -/
def name : Scheme → List Char
  | http => "http".toList
  | https => "https".toList

/-- The port that is meant when an address names none. -/
def defaultPort : Scheme → Nat
  | http => 80
  | https => 443

/-- The scheme with a name, in either case of letters. -/
def ofName? (cs : List Char) : Option Scheme :=
  let lower := cs.map Char.toLower
  if lower = http.name then some http
  else if lower = https.name then some https
  else none

end Scheme

/-- A web address in normal form. -/
structure Url where
  scheme : Scheme
  host : List Char
  /-- The port, unless it is the default one. -/
  port : Option Nat
  /-- The parts of the path; each comes after a slash. -/
  segments : List (List Char)
  query : Option (List Char)
  fragment : Option (List Char)
  deriving DecidableEq, Repr

namespace Url

/-! ## Escaping -/

/-- A visible ASCII character. -/
def isVisible (c : Char) : Bool :=
  0x21 ≤ c.toNat && c.toNat ≤ 0x7E

/-- What stands for itself in a fragment. -/
def isPlainInFragment (c : Char) : Bool :=
  isVisible c && !("\"<>`".toList.contains c)

/-- What stands for itself in a path. -/
def isPlainInPath (c : Char) : Bool :=
  isPlainInFragment c && !("#?\x7b\x7d".toList.contains c)

/-- What stands for itself in a query. -/
def isPlainInQuery (c : Char) : Bool :=
  isVisible c && !("\"#<>'".toList.contains c)

/-! ## Paths -/

/-- Whether a segment means its own directory: one dot, which may be escaped. -/
def isSingleDot (segment : List Char) : Bool :=
  [".", "%2e"].any fun form => segment.map Char.toLower == form.toList

/-- Whether a segment means the directory above: two dots, each of which may be escaped. -/
def isDoubleDot (segment : List Char) : Bool :=
  ["..", ".%2e", "%2e.", "%2e%2e"].any fun form => segment.map Char.toLower == form.toList

/-- Whether a segment names a drive: a letter and a colon or a bar. -/
def isDrive : List Char → Bool
  | [letter, mark] => letter.isAlpha && (mark == ':' || mark == '|')
  | _ => false

/-- The directory above some segments, which are in reverse order.  A drive has none above it. -/
def above : List (List Char) → List (List Char)
  | [] => []
  | segment :: rest => if isDrive segment then segment :: rest else rest

/-- Resolves the dot segments of a path.  `done` holds the segments so far, in reverse order; a path
    that ends in a dot segment ends in a slash. -/
def resolve (done : List (List Char)) : List (List Char) → List (List Char)
  | [] => done.reverse
  | [last] =>
    if isDoubleDot last then ([] :: above done).reverse
    else if isSingleDot last then ([] :: done).reverse
    else (last :: done).reverse
  | segment :: next :: rest =>
    if isDoubleDot segment then resolve (above done) (next :: rest)
    else if isSingleDot segment then resolve done (next :: rest)
    else resolve (segment :: done) (next :: rest)

/-- The segments of the text of a path, which is empty or begins with a slash. -/
def segmentsOf (path : List Char) : List (List Char) :=
  resolve [] ((Text.split '/' (path.drop 1)).map (Text.Percent.encode isPlainInPath))

/-! ## Hosts -/

/-- What a host may not contain. -/
def isForbiddenInHost (c : Char) : Bool :=
  !isVisible c || "#/:<>?@[\\]^|%".toList.contains c

/-- An authority without the credentials before its last at-sign. -/
def withoutCredentials (authority : List Char) : List Char :=
  (authority.reverse.takeWhile (· != '@')).reverse

/-- The host and the written port of an authority without credentials. -/
def hostPort? (scheme : Scheme) (authority : List Char) : Option (List Char × Option Nat) :=
  let host := authority.takeWhile (· != ':')
  if host.isEmpty || host.any isForbiddenInHost then none
  else
    let lower := host.map Char.toLower
    match authority.dropWhile (· != ':') with
    | [] => some (lower, none)
    | _ :: digits =>
      if digits.all Char.isDigit then
        let port := digits.foldl (fun n c => n * 10 + (c.toNat - 48)) 0
        if digits.isEmpty || port == scheme.defaultPort then some (lower, none)
        else if port ≤ 65535 then some (lower, some port)
        else none
      else none

/-! ## Whole addresses -/

/-- A control character or a space. -/
def isControlOrSpace (c : Char) : Bool :=
  c.toNat ≤ 0x20

/-- The text of an address as it is read: cut at both ends, without tabs and line ends. -/
def cleaned (cs : List Char) : List Char :=
  (Text.trimBy isControlOrSpace cs).filter fun c => c != '\t' && c != '\n' && c != '\r'

/-- Reads an absolute web address.  A backslash counts as a slash before the query, and credentials
    are left out. -/
def ofText? (text : List Char) : Option Url := do
  let cs := cleaned text
  let scheme ← Scheme.ofName? (cs.takeWhile (· != ':'))
  let rest := (cs.dropWhile (· != ':')).drop 1
  let place := rest.takeWhile fun c => c != '?' && c != '#'
  let rest := rest.dropWhile fun c => c != '?' && c != '#'
  let place := (place.map fun c => if c = '\\' then '/' else c).dropWhile (· == '/')
  let (host, port) ← hostPort? scheme (withoutCredentials (place.takeWhile (· != '/')))
  let query := rest.takeWhile (· != '#')
  let fragment := rest.dropWhile (· != '#')
  return {
    scheme, host, port
    segments := segmentsOf (place.dropWhile (· != '/'))
    query := query.tail?.map (Text.Percent.encode isPlainInQuery)
    fragment := fragment.tail?.map (Text.Percent.encode isPlainInFragment) }

/-- The scheme, host and port of an address. -/
def origin (url : Url) : List Char :=
  url.scheme.name ++ "://".toList ++ url.host ++
    (match url.port with
      | none => []
      | some port => ':' :: Nat.toDigits 10 port)

/-- The path of an address. -/
def path (url : Url) : List Char :=
  url.segments.flatMap ('/' :: ·)

/-- The path and the query of an address, as a request names them. -/
def target (url : Url) : List Char :=
  url.path ++ (match url.query with
    | none => []
    | some query => '?' :: query)

/-- The text of an address. -/
def text (url : Url) : List Char :=
  url.origin ++ url.target ++ (match url.fragment with
    | none => []
    | some fragment => '#' :: fragment)

end Url

end SearchGateway.Http
