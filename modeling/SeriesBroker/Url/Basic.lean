import SeriesBroker.Http.Form

/-! # URLs

    A URL by its parts, each in the form in which it is written. Parts that may not hold a
    character write it as escaped bytes; which characters those are differs from part to part.
-/

namespace SeriesBroker

/-- Why a text is no URL. -/
inductive UrlFault where
  | emptyHost
  | invalidDomainName
  | invalidPort
  | invalidIpv4
  | invalidIpv6
  | invalidDomainCharacter
  | relativeWithoutBase
  deriving DecidableEq

def UrlFault.message : UrlFault → String
  | .emptyHost => "empty host"
  | .invalidDomainName => "invalid international domain name"
  | .invalidPort => "invalid port number"
  | .invalidIpv4 => "invalid IPv4 address"
  | .invalidIpv6 => "invalid IPv6 address"
  | .invalidDomainCharacter => "invalid domain character"
  | .relativeWithoutBase => "relative URL without a base"

/-- The kinds of schemes that URLs are read by. -/
inductive SchemeKind where
  /-- Schemes of the web: they always have a host, and a backslash is a slash. -/
  | web
  /-- Files, with a host that may be missing. -/
  | file
  | other
  deriving DecidableEq

inductive UrlPath where
  /-- Segments, each of them after a slash. -/
  | segments (segments : List (List Char))
  /-- A text that is not divided. -/
  | undivided (text : List Char)
  deriving DecidableEq

structure Url where
  /-- The scheme in lower case. -/
  scheme : List Char
  username : List Char
  password : Option (List Char)
  host : Option (List Char)
  /-- The port, unless it is the one the scheme stands for. -/
  port : Option Nat
  path : UrlPath
  /-- The part after the question mark. -/
  query : Option (List Char)
  /-- The part after the number sign. -/
  fragment : Option (List Char)
  deriving DecidableEq

namespace Url

def kindOf (scheme : List Char) : SchemeKind :=
  if scheme = "file".toList then .file
  else if ["http", "https", "ws", "wss", "ftp"].contains (String.ofList scheme) then .web
  else .other

/-- The port that a scheme stands for. -/
def defaultPort (scheme : List Char) : Option Nat :=
  [("http", 80), ("https", 443), ("ws", 80), ("wss", 443), ("ftp", 21)].lookup
    (String.ofList scheme)

/-! ## Escapes -/

/-- Whether a character is a control or outside ASCII. -/
def isControl (c : Char) : Bool := c.toNat < 0x20 || 0x7e < c.toNat

/-- Whether a fragment escapes a character. -/
def inFragment (c : Char) : Bool := isControl c || [' ', '"', '<', '>', '\x60'].contains c

/-- Whether a query escapes a character. -/
def inQuery (c : Char) : Bool := isControl c || [' ', '"', '#', '<', '>'].contains c

/-- Whether the query of a web scheme escapes a character. -/
def inWebQuery (c : Char) : Bool := inQuery c || c == '\''

/-- Whether a path escapes a character. -/
def inPath (c : Char) : Bool := inFragment c || ['#', '?', '\x7b', '\x7d'].contains c

/-- Whether a user name or a password escapes a character. -/
def inUserinfo (c : Char) : Bool :=
  inPath c || ['/', ':', ';', '=', '@', '[', '\\', ']', '^', '|'].contains c

/-- A text with the characters of a set as escaped bytes. -/
def escapeBy (set : Char → Bool) (text : List Char) : List Char :=
  text.flatMap fun c =>
    if set c then (Text.bytes (String.ofList [c])).flatMap Form.percentEscape else [c]

/-! ## Writing -/

/-- The user name and the password, before the host. -/
def userinfoText (u : Url) : List Char :=
  match u.username, u.password with
  | [], none => []
  | name, none => name ++ ['@']
  | name, some password => name ++ ':' :: password ++ ['@']

/-- The part between the scheme and the path. -/
def authorityText (u : Url) : List Char :=
  match u.host with
  | none => if kindOf u.scheme = .file then ['/', '/'] else []
  | some host =>
    let port :=
      match u.port with
      | some port => ':' :: Nat.toDigits 10 port
      | none => []
    '/' :: '/' :: u.userinfoText ++ host ++ port

def pathText (u : Url) : List Char :=
  match u.path with
  | .undivided text => text
  | .segments segments => segments.flatMap fun s => '/' :: s

/-- What keeps an empty first segment from being read as the start of a host. -/
def pathGuard (u : Url) : List Char :=
  match u.authorityText, u.path with
  | [], .segments ([] :: _ :: _) => ['/', '.']
  | _, _ => []

/-- An optional part with the mark before it. -/
def markedText (mark : Char) : Option (List Char) → List Char
  | some text => mark :: text
  | none => []

def text (u : Url) : List Char :=
  u.scheme ++ ':' :: u.authorityText ++ u.pathGuard ++ u.pathText ++ markedText '?' u.query ++
    markedText '#' u.fragment

/-- Whether the path is not divided into segments. -/
def isUndivided (u : Url) : Bool :=
  match u.path with
  | .undivided _ => true
  | .segments _ => false

/-! ## Changing parts -/

/-- Whether the escapes of a part stand for text. -/
def isReadable (part : List Char) : Bool :=
  (Text.text? (Form.percentDecode (Text.bytes (String.ofList part)))).isSome

/-- The URL without user name and password, unless neither of them can be used as text. -/
def withoutUserinfo (u : Url) : Url :=
  if isReadable u.username && (!u.username.isEmpty || u.password.any isReadable) then
    { u with username := [], password := none }
  else u

/-- The URL with pairs added to its query. -/
def addPairs (u : Url) (pairs : List (String × String)) : Url :=
  let query :=
    match u.query with
    | none | some [] => Form.encode pairs
    | some query => query ++ '&' :: Form.encode pairs
  { u with query := some query }

end Url

end SeriesBroker
