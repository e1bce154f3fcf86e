import ApiSmith.Data.Value
import ApiSmith.Text.CodePoints
import ApiSmith.Text.Cut
import ApiSmith.Text.Lowercase

/-!
# Connection settings

Settings are given one by one or read from the environment. A token is either fixed or handed out
by a provider, which may run out of them.
-/

namespace ApiSmith

open Text

inductive TokenSource where
  /-- The same token each time, or none. -/
  | fixed (token : Option String)
  /-- The tokens that a provider has left. -/
  | provided (rest : List (Option String))
  deriving DecidableEq, Repr

/-- The next token, empty where there is none, and the source after it. A provider that ran out has
no next token. -/
def TokenSource.next? : TokenSource → Option (String × TokenSource)
  | .fixed token => some (token.getD "", .fixed token)
  | .provided [] => none
  | .provided (token :: rest) => some (token.getD "", .provided rest)

structure ClientConfig where
  baseUrl : String := ""
  /-- What follows the address of the server in every request. -/
  apiRoot : Option String := some "api"
  accessToken : Option String := none
  /-- The tokens of a provider, which wins over the fixed token. -/
  tokens : Option (List (Option String)) := none
  /-- The directory of the trusted certificates. -/
  certDir : Option String := none
  timeout : Value := .float 30.0
  mocksEnabled : Bool := false
  userAgent : String := "clientgen/0.1.0"

namespace ClientConfig

def isOn (s : String) : Bool :=
  ["1", "true", "yes", "on"].contains (String.ofList (lower (trim s.toList)))

/-- A path without empty and single-dot parts; two leading slashes, and not more, are kept. -/
def plainPath (s : String) : String :=
  let cs := s.toList
  let root :=
    match (cs.takeWhile (· == '/')).length with
    | 0 => []
    | 2 => ['/', '/']
    | _ => ['/']
  let parts := (fields '/' cs).filter fun p => !p.isEmpty && p != ['.']
  if root.isEmpty && parts.isEmpty then "." else String.ofList (root ++ join ['/'] parts)

def ofEnvironment (env : List (String × String)) : ClientConfig where
  baseUrl := (env.lookup "CLIENTGEN_BASE_URL").getD ""
  apiRoot := some ((env.lookup "CLIENTGEN_API_ROOT").getD "api")
  accessToken := env.lookup "CLIENTGEN_TOKEN"
  certDir := ((env.lookup "CLIENTGEN_CERT_DIR").filter fun s => !s.isEmpty).map plainPath
  mocksEnabled := ((env.lookup "CLIENTGEN_MOCKS").map isOn).getD false

def withoutEndSlashes (cs : List Char) : List Char := (cs.reverse.dropWhile (· == '/')).reverse

/-- The address below which all resources are: the server and, unless it is empty, the root of the
interface, with one slash between them. -/
def urlHost (c : ClientConfig) : String :=
  let base := withoutEndSlashes c.baseUrl.toList
  match c.apiRoot with
  | none | some "" => String.ofList base
  | some root => String.ofList (base ++ '/' :: trimBy (· == '/') root.toList)

def tokenSource (c : ClientConfig) : TokenSource :=
  match c.tokens with
  | some ts => .provided ts
  | none => .fixed c.accessToken

end ClientConfig

end ApiSmith
