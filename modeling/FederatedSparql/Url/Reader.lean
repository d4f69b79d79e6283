import FederatedSparql.Error
import FederatedSparql.Url.Basic
import FederatedSparql.Url.Domain

/-!
Reading absolute URLs.  Each part is brought into one form: schemes and domains in small letters,
numeric hosts as addresses, paths without dot segments, and everything that a part cannot hold in
percent-encoding.
-/

namespace FederatedSparql.Url

/-! ### Pieces of text -/

/-- The text before a mark and, if there is one, the text after it. -/
def cut (mark : Char → Bool) (cs : List Char) : List Char × Option (List Char) :=
  let before := cs.takeWhile fun c => !mark c
  match cs.drop before.length with
  | [] => (before, none)
  | _ :: after => (before, some after)

/-- A text without controls and spaces at either end, and without line breaks and tabs. -/
def cleaned (cs : List Char) : List Char :=
  let isEdge (c : Char) : Bool := c.toNat ≤ 0x20
  let trimmed := ((cs.dropWhile isEdge).reverse.dropWhile isEdge).reverse
  trimmed.filter fun c => !(['\t', '\n', '\r'].contains c)

/-- What separates the segments of a path. -/
def isSlash (kind : Kind) (c : Char) : Bool := c == '/' || (kind != .other && c == '\\')

/-- The scheme in front of a text, and the text after its colon. -/
def scheme? (cs : List Char) : Option (String × List Char) := do
  let (name, after) := cut (· == ':') cs
  let after ← after
  let first ← name.head?
  guard (first.isAlpha && name.all fun c => c.isAlphanum || ['+', '-', '.'].contains c)
  return (String.ofList (name.map Char.toLower), after)

/-! ### Hosts and sockets -/

/-- Splits a text at the first colon that is not in brackets. -/
def splitSocket (inBrackets : Bool) : List Char → List Char × Option (List Char)
  | [] => ([], none)
  | c :: cs =>
    if c == ':' && !inBrackets then ([], some cs)
    else
      let inBrackets := if c == '[' then true else if c == ']' then false else inBrackets
      let (host, socket) := splitSocket inBrackets cs
      (c :: host, socket)

/-- The address between brackets. -/
def bracketed? (cs : List Char) : Option Host := do
  guard (cs.getLast? == some ']')
  return .v6 (← readV6? cs.dropLast)

/-- The host that a text names. -/
def host? (kind : Kind) (cs : List Char) : Option Host :=
  match cs with
  | '[' :: rest => bracketed? rest
  | _ =>
    if kind == .other then do
      guard (!cs.any isForbiddenInHost)
      return .named (String.ofList (escape (fun _ => false) cs))
    else do
      let name ← domain? (← unescapeText? cs)
      let parts := fields '.' name
      if endsInNumber parts then return .v4 (← readV4? parts)
      else return .named (String.ofList name)

/-- The socket that a number stands for; none if it is the one of the scheme. -/
def socket? (scheme : String) (cs : List Char) : Option (Option Nat) := do
  guard (cs.all Char.isDigit)
  let n ← digits? 10 cs
  guard (n < 65536)
  return if cs.isEmpty || defaultSocket? scheme == some n then none else some n

/-- The authority that a text names.  Without a host there are no credentials and no socket;
`isFollowed` tells whether anything comes after the text. -/
def authority? (scheme : String) (kind : Kind) (isFollowed : Bool) (cs : List Char) :
    Option Authority := do
  let (credentials, place) :=
    match splitAtLast? ['@'] cs with
    | some (before, after) => (some before, after)
    | none => (none, cs)
  let (username, password) := cut (· == ':') (credentials.getD [])
  let username := String.ofList (escape inCredentials username)
  let password := String.ofList (escape inCredentials (password.getD []))
  let (host, socket) := splitSocket false place
  if host.isEmpty then
    guard (kind == .other && username.isEmpty && password.isEmpty && socket.isNone)
    guard (!(isFollowed && credentials == some []))
    return {}
  else
    return {
      username, password
      host := ← host? kind host
      socket := ← socket? scheme (socket.getD []) }

/-! ### Paths -/

/-- Whether a segment is a dot, in percent-encoding or not. -/
def isDot (cs : List Char) : Bool := cs == ['.'] || cs.map Char.toLower == ['%', '2', 'e']

/-- Whether a segment leads one segment up. -/
def isUp (cs : List Char) : Bool :=
  (cs.take 1 == ['.'] && isDot (cs.drop 1)) ||
    (isDot (cs.take 3) && cs.length > 3 && isDot (cs.drop 3))

/-- Whether a segment is the letter of a drive. -/
def isDrive : List Char → Bool
  | [letter, mark] => letter.isAlpha && (mark == ':' || mark == '|')
  | _ => false

/-- The segments one up from the given ones; drives are not left. -/
def up (names : List (List Char)) : List (List Char) :=
  if names.getLast?.any isDrive then names else names.dropLast

/-- Appends a segment.  Dots only lead around, but a path that ends in one ends in a slash; the path
of a file has no empty segment in front. -/
def append (kind : Kind) (names : List (List Char)) (isLast : Bool) (name : List Char) :
    List (List Char) :=
  let final := if isLast then [[]] else []
  if isUp name then up names ++ final
  else if isDot name then names ++ final
  else if kind == .file && names.isEmpty then
    if isDrive name then [name.take 1 ++ [':']] else if name.isEmpty then final else [name]
  else names ++ [name]

/-- Appends segments one after the other. -/
def appendAll (kind : Kind) : List (List Char) → List (List Char) → List (List Char)
  | names, [] => names
  | names, [name] => append kind names true name
  | names, name :: rest => appendAll kind (append kind names false name) rest

/-- The fields of a path, encoded. -/
def segmentsOf (kind : Kind) (cs : List Char) : List (List Char) :=
  (fields '/' (cs.map fun c => if isSlash kind c then '/' else c)).map (escape inPath)

/-- The path that a text after its first slash names. -/
def pathOf (kind : Kind) (cs : List Char) : Path :=
  .segments ((appendAll kind [] (segmentsOf kind cs)).map String.ofList)

/-- The path after an authority. -/
def pathAfterAuthority (kind : Kind) (cs : List Char) : Path :=
  if cs.isEmpty && kind == .other then .segments [] else pathOf kind (cs.drop 1)

/-! ### URLs -/

/-- Splits the text after two slashes where the path begins. -/
def splitPath (kind : Kind) (cs : List Char) : List Char × List Char :=
  let place := cs.takeWhile fun c => !isSlash kind c
  (place, cs.drop place.length)

/-- The host of a file; a drive is part of the path, and so is the authority of a file on one. -/
def filePlace? (cs : List Char) : Option (Authority × Path) := do
  let (place, rest) := splitPath .file cs
  if isDrive place then return ({}, pathOf .file cs)
  else
    let target := pathAfterAuthority .file rest
    if place.isEmpty then return ({}, target)
    else
      let host ← host? .file place
      let startsInDrive := (segmentsOf .file (rest.drop 1)).head?.any isDrive
      if host == .named "localhost" || startsInDrive then return ({}, target)
      else return ({ host }, target)

/-- The authority and the path that the text after a scheme names, up to the query. -/
def place? (scheme : String) (isFollowed : Bool) (cs : List Char) :
    Option (Option Authority × Path) :=
  let kind := Kind.ofScheme scheme
  match kind, cs with
  | .network, _ => do
    let (place, rest) := splitPath kind (cs.dropWhile (isSlash kind))
    let authority ← authority? scheme kind (isFollowed || !rest.isEmpty) place
    return (some authority, pathAfterAuthority kind rest)
  | .file, a :: b :: rest =>
    if isSlash kind a && isSlash kind b then do
      let (authority, target) ← filePlace? rest
      return (some authority, target)
    else some (some {}, pathOf kind (if isSlash kind a then b :: rest else cs))
  | .file, _ => some (some {}, pathOf kind (cs.dropWhile (isSlash kind)))
  | .other, '/' :: '/' :: rest => do
    let (place, rest) := splitPath kind rest
    let authority ← authority? scheme kind (isFollowed || !rest.isEmpty) place
    return (some authority, pathAfterAuthority kind rest)
  | .other, '/' :: rest => some (none, pathOf kind rest)
  | .other, _ => some (none, .text (String.ofList (escape (fun _ => false) cs)))

/-- The absolute URL that a text is. -/
def read? (text : String) : Option Url := do
  let (scheme, rest) ← scheme? (cleaned text.toList)
  let (rest, fragment) := cut (· == '#') rest
  let (rest, query) := cut (· == '?') rest
  let (authority, path) ← place? scheme (query.isSome || fragment.isSome) rest
  let quote := Kind.ofScheme scheme != .other
  return {
    scheme, authority, path
    query := query.map fun cs => String.ofList (escape (inQuery quote) cs)
    fragment := fragment.map fun cs => String.ofList (escape inFragment cs) }

end FederatedSparql.Url
