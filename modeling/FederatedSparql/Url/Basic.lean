import FederatedSparql.Url.Address

/-!
Absolute URLs and how they are written.
-/

namespace FederatedSparql

namespace Url

/-- What a URL of a scheme looks like. -/
inductive Kind where
  /-- A host is needed, and backslashes are slashes. -/
  | network
  /-- Like `network` but for local files: the host may be missing. -/
  | file
  | other
deriving DecidableEq, Repr, Inhabited

/-- The kind of the URLs of a scheme. -/
def Kind.ofScheme (scheme : String) : Kind :=
  if scheme ∈ ["http", "https", "ws", "wss", "ftp"] then .network
  else if scheme = "file" then .file
  else .other

/-- The number of the socket that the hosts of a scheme listen on; it need not be written. -/
def defaultSocket? (scheme : String) : Option Nat :=
  match scheme with
  | "http" => some 80
  | "ws" => some 80
  | "https" => some 443
  | "wss" => some 443
  | "ftp" => some 21
  | _ => none

/-- The host of a URL. -/
inductive Host where
  | named (name : String)
  | v4 (address : Nat)
  | v6 (pieces : List Nat)
deriving DecidableEq, Repr, Inhabited

/-- A host as a URL shows it. -/
def Host.write : Host → String
  | .named name => name
  | .v4 address => writeV4 address
  | .v6 pieces => "[" ++ writeV6 pieces ++ "]"

/-- Where, and for whom, a URL is to be found. -/
structure Authority where
  username : String := ""
  password : String := ""
  host : Host := .named ""
  /-- The number of the socket, unless it is the one of the scheme. -/
  socket : Option Nat := none
deriving DecidableEq, Repr, Inhabited

/-- An authority as a URL shows it. -/
def Authority.write (a : Authority) : String :=
  let password := if a.password.isEmpty then "" else ":" ++ a.password
  let credentials := a.username ++ password
  let socket :=
    match a.socket with
    | some n => ":" ++ toString n
    | none => ""
  (if credentials.isEmpty then "" else credentials ++ "@") ++ a.host.write ++ socket

/-- The path of a URL. -/
inductive Path where
  | segments (names : List String)
  /-- A text without a slash in front, of which the scheme alone knows the meaning. -/
  | text (content : String)
deriving DecidableEq, Repr, Inhabited

/-- A path as a URL shows it: a slash before each segment. -/
def Path.write : Path → String
  | .segments names => String.join (names.map fun name => "/" ++ name)
  | .text content => content

/-- Whether a path without an authority before it would be taken for one. -/
def Path.looksLikeAuthority : Path → Bool
  | .segments ("" :: _ :: _) => true
  | _ => false

end Url

/-- An absolute URL; all its parts are in the encoding that they are written in. -/
structure Url where
  scheme : String
  authority : Option Url.Authority := none
  path : Url.Path
  query : Option String := none
  fragment : Option String := none
deriving DecidableEq, Repr, Inhabited

/-- A URL as text. -/
def Url.write (u : Url) : String :=
  let place :=
    match u.authority with
    | some a => "//" ++ a.write
    | none => if u.path.looksLikeAuthority then "/." else ""
  let part (mark : String) : Option String → String
    | some text => mark ++ text
    | none => ""
  u.scheme ++ ":" ++ place ++ u.path.write ++ part "?" u.query ++ part "#" u.fragment

end FederatedSparql
