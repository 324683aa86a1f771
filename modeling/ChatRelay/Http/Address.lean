import ChatRelay.Http.Host

/-!
# Addresses

A web address: the server that it leads to, and the target by which a request names it to the
server: its path, with dots resolved and characters that a path may not hold written as percent
escapes, and its query. The fragment is not sent.
-/

namespace ChatRelay.Http

/-- The characters after which an address's server part ends. -/
def endsServer (c : Char) : Bool :=
  c = '/' || c = '\\' || c = '?' || c = '#'

/-- A text without the control characters and spaces at its ends, and without tabs and line ends. -/
def tidied (url : List Char) : List Char :=
  let isFiller (c : Char) : Bool := c.toNat ≤ 0x20
  let inner := ((url.dropWhile isFiller).reverse.dropWhile isFiller).reverse
  inner.filter fun c => c != '\t' && c != '\n' && c != '\r'

/-- Whether a web address asks for a secure connection, and what follows its scheme. -/
def cutScheme? (url : List Char) : Option (Bool × List Char) :=
  let scheme := (url.takeWhile (· != ':')).map Char.toLower
  match url.dropWhile (· != ':') with
  | [] => none
  | _ :: rest =>
    if scheme = "http".toList then some (false, rest)
    else if scheme = "https".toList then some (true, rest)
    else none

/-! ### Servers -/

/-- A user's name and password. -/
structure Credentials where
  user : List Char
  password : List Char
deriving DecidableEq

/-- The server part of an address. -/
structure Server where
  credentials : Option Credentials
  host : Host
  port : Option Nat
deriving DecidableEq

/-- The text that bytes are, if they are one. -/
def text? (bytes : List UInt8) : Option (List Char) :=
  let s := Text.decode bytes
  if Text.utf8 s = bytes then some s else none

/-- The credentials before a server's host, if they name a user or give a password. A user that is
no text spoils them, and a password that is no text counts as none. -/
def Credentials.parse? (s : List Char) : Option Credentials := do
  let user ← text? (unescaped (s.takeWhile (· != ':')))
  let password := (s.dropWhile (· != ':')).drop 1
  let password := if password.isEmpty then none else text? (unescaped password)
  if user.isEmpty ∧ password.isNone then none
  else return ⟨user, password.getD []⟩

/-- The text before and after the last at sign, if there is one. -/
def cutAtLastSign? (s : List Char) : Option (List Char × List Char) :=
  match s with
  | [] => none
  | c :: rest =>
    match cutAtLastSign? rest with
    | some (before, after) => some (c :: before, after)
    | none => if c = '@' then some ([], rest) else none

/-- The text of a host and of what follows it; a colon in brackets is part of the host. -/
def cutHost (inBrackets : Bool) : List Char → List Char × List Char
  | [] => ([], [])
  | c :: rest =>
    if c = ':' ∧ inBrackets = false then ([], c :: rest)
    else
      let (host, rest) := cutHost (c = '[' || (inBrackets && c != ']')) rest
      (c :: host, rest)

/-- The port after a host; it may be left out. -/
def port? : List Char → Option (Option Nat)
  | [] | [':'] => some none
  | _ :: digits => ((digitsValue? 10 digits).filter (· ≤ 65535)).map some

/-- The server that a text names. -/
def Server.parse? (s : List Char) : Option Server := do
  let (credentials, s) := match cutAtLastSign? s with
    | some (before, rest) => (Credentials.parse? before, rest)
    | none => (none, s)
  let (host, rest) := cutHost false s
  return { credentials, host := ← Host.parse? host, port := ← port? rest }

/-! ### Targets -/

/-- A character, or its percent escapes when a test picks it or it is not a visible ASCII one. -/
def escaped (picks : Char → Bool) (c : Char) : List Char :=
  if c.toNat ≤ 0x20 || 0x7F ≤ c.toNat || picks c then
    (Text.utf8 [c]).flatMap fun b =>
      '%' :: [(Text.hexDigit (b.toNat / 16)).toUpper, (Text.hexDigit (b.toNat % 16)).toUpper]
  else [c]

/-- The characters that are escaped in a path. -/
def isEscapedInPath (c : Char) : Bool :=
  "\"#<>?`\x7b\x7d".toList.contains c

/-- The characters that are escaped in a query. -/
def isEscapedInQuery (c : Char) : Bool :=
  "\"#<>'".toList.contains c

/-- A segment with the escapes of dots read. -/
def plainDots : List Char → List Char
  | '%' :: '2' :: 'e' :: rest | '%' :: '2' :: 'E' :: rest => '.' :: plainDots rest
  | c :: rest => c :: plainDots rest
  | [] => []

/-- Whether a segment is named as a drive is: a letter, and a colon or a bar. -/
def isDrive : List Char → Bool
  | [c, ':'] | [c, '|'] => c.isAlpha
  | _ => false

/-- Segments with dots resolved, after segments that are, newest first. Two dots leave the segment
before them, unless it is a drive. A path that ends in dots ends in an empty segment. -/
def resolveDots (before : List (List Char)) : List (List Char) → List (List Char)
  | [] => before.reverse
  | s :: rest =>
    let last (before : List (List Char)) := if rest.isEmpty then [] :: before else before
    if plainDots s = ['.'] then resolveDots (last before) rest
    else if plainDots s = ['.', '.'] then
      resolveDots (last (if before.head?.any isDrive then before else before.drop 1)) rest
    else resolveDots (s :: before) rest

/-- The path and query of a request's target. -/
def targetOf (path query : List Char) : List Char :=
  let segments := resolveDots [] (splitAt (fun c => c = '/' || c = '\\') (path.drop 1))
  segments.flatMap (fun s => '/' :: s.flatMap (escaped isEscapedInPath)) ++
    query.flatMap (escaped isEscapedInQuery)

/-! ### Addresses -/

/-- A web address. -/
structure Address where
  secure : Bool
  server : Server
  target : String
deriving DecidableEq

/-- The web address that a text is, if it is one. -/
def Address.parse? (url : String) : Option Address := do
  let (secure, rest) ← cutScheme? (tidied url.toList)
  let rest := rest.dropWhile fun c => c = '/' || c = '\\'
  let server ← Server.parse? (rest.takeWhile (!endsServer ·))
  let rest := (rest.dropWhile (!endsServer ·)).takeWhile (· != '#')
  let target := targetOf (rest.takeWhile (· != '?')) (rest.dropWhile (· != '?'))
  return { secure, server, target := String.ofList target }

end ChatRelay.Http
