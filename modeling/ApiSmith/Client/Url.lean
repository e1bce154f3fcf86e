import ApiSmith.Text.Cut
import ApiSmith.Text.Percent

/-!
# Addresses

An address has a scheme, an authority, a path, a query and a fragment, most of which may be absent.
Reading one normalises it: the scheme is in small letters, a port that the scheme implies is left
out, dot segments are resolved, and characters that are not safe at their place are escaped. What is
escaped already stays as it is.

A request names its resource relative to a base address. The path of the base is kept whole and the
resource is appended to it, so a leading slash of the resource does not lead back to the root.
-/

namespace ApiSmith

open Number Text

structure Url where
  /-- The scheme; empty if there is none. -/
  scheme : List Char
  /-- What stands before the at sign of the authority. -/
  userinfo : List Char
  /-- The host; empty if there is none. -/
  host : List Char
  /-- The port, unless the scheme implies it. -/
  port : Option Nat
  path : List Char
  /-- The query, after a question mark. -/
  query : Option (List Char)
  /-- The fragment, after a number sign. -/
  fragment : Option (List Char)
  deriving DecidableEq, Repr

namespace Url

/-! ## Escapes -/

/-- Whether a character is printable ASCII other than a blank. -/
def isVisible (c : Char) : Bool := '!' ≤ c && c ≤ '~'

def isFragmentSafe (c : Char) : Bool := isVisible c && !(['"', '<', '>', '\x60'].contains c)

def isQuerySafe (c : Char) : Bool := isVisible c && !(['"', '#', '<', '>'].contains c)

def isPathSafe (c : Char) : Bool := isQuerySafe c && !(['?', '\x60', '\x7b', '\x7d'].contains c)

def isUserSafe (c : Char) : Bool :=
  isPathSafe c && !(['/', ';', '=', '@', '[', '\\', ']', '^', '|'].contains c)

def isHostSafe (c : Char) : Bool :=
  Percent.isUnreserved c ||
    ['!', '$', '&', '\'', '(', ')', '*', '+', ',', ';', '=', '"', '\x60', '\x7b', '\x7d', '%', '|',
      '\\'].contains c

def escaped (safe : Char → Bool) (cs : List Char) : List Char :=
  Percent.encode safe (utf8Octets (String.ofList cs))

/-! ## Parts -/

/-- The scheme and the rest. A colon without anything before it is dropped. -/
def cutScheme (cs : List Char) : List Char × List Char :=
  let isSchemeChar (c : Char) : Bool := c.isAlphanum || c == '+' || c == '.' || c == '-'
  let name := cs.takeWhile isSchemeChar
  match cs.dropWhile isSchemeChar with
  | ':' :: rest =>
    if name.isEmpty || name.head?.any Char.isAlpha then (name, rest) else ([], cs)
  | _ => ([], cs)

def cutAuthority : List Char → List Char × List Char
  | '/' :: '/' :: rest => rest.span fun c => c != '/' && c != '?' && c != '#'
  | cs => ([], cs)

/-- The host and what follows it: a host in brackets ends with the last bracket, any other one before
a colon. -/
def cutHost (cs : List Char) : List Char × List Char :=
  let plain := cs.span fun c => c != ':' && c != '@'
  match cs with
  | '[' :: _ =>
    match afterLast? ']' cs with
    | some rest => (cs.take (cs.length - rest.length), rest)
    | none => plain
  | _ => plain

def impliedPort? (scheme : String) : Option Nat :=
  [("ftp", 21), ("http", 80), ("https", 443), ("ws", 80), ("wss", 443)].lookup scheme

def readPort? (scheme : List Char) (cs : List Char) : Option (Option Nat) :=
  let digits := if cs.head? == some ':' then cs.drop 1 else cs
  if digits.isEmpty then some none
  else if digits.all Char.isDigit then
    let n := asciiNat digits
    some (if impliedPort? (String.ofList scheme) == some n then none else some n)
  else none

/-- Whether digits write the part of a numeric host. -/
def isOctetText (cs : List Char) : Bool :=
  !cs.isEmpty && cs.all Char.isDigit && cs.length ≤ 3 && (cs.length == 1 || cs.head? != some '0') &&
    asciiNat cs ≤ 255

def readHost? (cs : List Char) : Option (List Char) :=
  let parts := fields '.' cs
  if parts.length == 4 && parts.all fun p => !p.isEmpty && p.all Char.isDigit then
    if parts.all isOctetText then some cs else none
  else
    match cs with
    | '[' :: rest =>
      let inner := rest.dropLast
      if rest.getLast? == some ']' && inner.all fun c => c.isDigit || ('a' ≤ c.toLower &&
          c.toLower ≤ 'f') || c == ':' || c == '.' then some inner
      else none
    | _ =>
      if cs.all fun c => c.toNat < 128 then some (escaped isHostSafe (cs.map Char.toLower)) else none

/-- The part before the at sign and the rest. -/
def cutUser (authority : List Char) : List Char × List Char :=
  match afterLast? '@' authority with
  | some rest => (authority.take (authority.length - rest.length - 1), rest)
  | none => ([], authority)

/-- Dot segments resolved: a single dot goes, two dots take the segment before with them. -/
def resolveDots (path : List Char) : List Char :=
  join ['/'] ((fields '/' path).foldl (fun done segment =>
    if segment == ['.'] then done
    else if segment == ['.', '.'] then
      if done == [] || done == [[]] then done else done.dropLast
    else done ++ [segment]) [])

def hasDots (path : List Char) : Bool :=
  (fields '/' path).any fun s => s == ['.'] || s == ['.', '.']

/-- Whether a path can follow: after an authority it starts with a slash; without scheme and
authority it must not look like one. -/
def isPossiblePath (hasScheme hasAuthority : Bool) (path : List Char) : Bool :=
  (!hasAuthority || path.isEmpty || path.head? == some '/') &&
    (hasScheme || hasAuthority || !(path.take 2 == ['/', '/'] || path.head? == some ':'))

def ofParts? (scheme authority path : List Char) (query fragment : Option (List Char)) :
    Option Url := do
  let (user, rest) := cutUser authority
  let (host, rest) := cutHost rest
  let host ← readHost? host
  let port ← readPort? scheme rest
  let userinfo := escaped isUserSafe user
  let hasScheme := !scheme.isEmpty
  let hasAuthority := !userinfo.isEmpty || !host.isEmpty || port.isSome
  if !isPossiblePath hasScheme hasAuthority path then none
  let path := if (hasScheme || hasAuthority) && hasDots path then resolveDots path else path
  pure {
    scheme := scheme.map Char.toLower
    userinfo := userinfo
    host := host
    port := port
    path := escaped isPathSafe path
    query := query.map (escaped isQuerySafe)
    fragment := fragment.map (escaped isFragmentSafe) }

def maxLength : Nat := 65536

/-- Whether a text has neither control characters nor too many characters. -/
def isPlain (cs : List Char) : Bool :=
  cs.length ≤ maxLength && cs.all fun c => ' ' ≤ c && c != '\x7f'

def read? (cs : List Char) : Option Url := do
  if !isPlain cs then none
  let (scheme, rest) := cutScheme cs
  let (authority, rest) := cutAuthority rest
  let (rest, fragment) := cutAtChar '#' rest
  let (path, query) := cutAtChar '?' rest
  ofParts? scheme authority path query fragment

/-! ## Writing -/

def authority (u : Url) : List Char :=
  (if u.userinfo.isEmpty then [] else u.userinfo ++ ['@']) ++
    (if u.host.contains ':' then '[' :: u.host ++ [']'] else u.host) ++
    (match u.port with
      | none => []
      | some n => ':' :: natText n)

def text (u : Url) : List Char :=
  (if u.scheme.isEmpty then [] else u.scheme ++ [':']) ++
    (if u.authority.isEmpty then [] else '/' :: '/' :: u.authority) ++ u.path ++
    (match u.query with
      | none => []
      | some q => '?' :: q) ++
    (match u.fragment with
      | none => []
      | some f => '#' :: f)

/-- The path and the query as text; the path is never empty. -/
def resource (u : Url) : List Char :=
  (if u.path.isEmpty then ['/'] else u.path) ++
    (match u.query with
      | none => []
      | some q => '?' :: q)

/-! ## Joining -/

def withResource? (u : Url) (resource : List Char) : Option Url :=
  let (path, query) := cutAtChar '?' resource
  ofParts? u.scheme u.authority path query u.fragment

/-- The address as a base: its resource ends with a slash. -/
def asBase? (u : Url) : Option Url :=
  if u.resource.getLast? == some '/' then some u else u.withResource? (u.resource ++ ['/'])

def isAbsolute (u : Url) : Bool := !u.scheme.isEmpty && !u.host.isEmpty

/-- A reference below a base: an address that stands on its own is kept; of any other one the
resource is appended. -/
def below? (base : Url) (reference : List Char) : Option Url := do
  let u ← read? reference
  if u.isAbsolute then pure u
  else base.withResource? (base.resource ++ u.resource.dropWhile (· == '/'))

/-- The name and the secret before the host, as an authorization header gives them. -/
def credentials? (u : Url) : Option (List UInt8) :=
  let (name, secret) := cutAtChar ':' u.userinfo
  let name := Percent.decode name
  let secret := Percent.decode (secret.getD [])
  if name.isEmpty && secret.isEmpty then none else some (name ++ 0x3a :: secret)

end Url

end ApiSmith
