import SeriesBroker.Url.Host

/-! # Reading URLs

    A text is read as an absolute URL. Controls and spaces around it, and tabs and line breaks
    inside it, do not count. The path loses its dot segments, and every part is put into the
    form in which it is written, so reading the text of a URL gives the URL again.
-/

namespace SeriesBroker.Url

/-- Whether a character is a control of ASCII or a space. -/
def isMargin (c : Char) : Bool := c.toNat ≤ 0x20

/-- The characters of a text that count. -/
def significant (text : String) : List Char :=
  let trimmed := ((text.toList.dropWhile isMargin).reverse.dropWhile isMargin).reverse
  trimmed.filter fun c => c != '\t' && c != '\n' && c != '\r'

/-- The scheme in lower case, and what follows its colon. -/
def readScheme (text : List Char) : Except UrlFault (List Char × List Char) :=
  match text.head? with
  | none => .error .relativeWithoutBase
  | some first =>
    let isSchemeChar (c : Char) : Bool := c.isAlphanum || c == '+' || c == '-' || c == '.'
    match first.isAlpha, text.dropWhile isSchemeChar with
    | true, ':' :: rest => .ok ((text.takeWhile isSchemeChar).map Char.toLower, rest)
    | _, _ => .error .relativeWithoutBase

/-! ## User names and passwords -/

/-- Whether a character ends the part before the path. -/
def endsAuthority (kind : SchemeKind) (c : Char) : Bool :=
  c == '/' || c == '?' || c == '#' || (kind == .web && c == '\\')

/-- The user name, the password and what follows them, up to the last at sign before the path.
    A password that is empty is none. -/
def readUserinfo (kind : SchemeKind) (text : List Char) :
    Except UrlFault (List Char × Option (List Char) × List Char) :=
  let authority := text.takeWhile fun c => !endsAuthority kind c
  if !authority.contains '@' then .ok ([], none, text)
  else
    let host := (authority.reverse.takeWhile (· != '@')).reverse
    let userinfo := authority.take (authority.length - host.length - 1)
    let rest := text.drop (userinfo.length + 1)
    if userinfo.isEmpty then
      match rest with
      | c :: _ => if endsAuthority kind c then .error .emptyHost else .ok ([], none, rest)
      | [] => .ok ([], none, rest)
    else
      let name := userinfo.takeWhile (· != ':')
      let password := (userinfo.dropWhile (· != ':')).drop 1
      .ok (escapeBy inUserinfo name,
        if password.isEmpty then none else some (escapeBy inUserinfo password), rest)

/-! ## Hosts and ports -/

/-- The length of the host at the front of a text. Colons inside brackets belong to it. -/
def hostLength (kind : SchemeKind) (bracketed : Bool) : List Char → Nat
  | [] => 0
  | c :: rest =>
    if (c == ':' && !bracketed) || endsAuthority kind c then 0
    else if c == '[' then hostLength kind true rest + 1
    else if c == ']' then hostLength kind false rest + 1
    else hostLength kind bracketed rest + 1

/-- Read a port after its colon. No digits, and the port of the scheme, are no port. -/
def readPort (scheme : List Char) (text : List Char) :
    Except UrlFault (Option Nat × List Char) :=
  let digits := text.takeWhile Char.isDigit
  let rest := text.dropWhile Char.isDigit
  let port := Nat.ofDigitChars 10 digits 0
  let ended :=
    match rest with
    | [] => true
    | c :: _ => c == '/' || c == '\\' || c == '?' || c == '#'
  if 65535 < port ∨ !ended then .error .invalidPort
  else if digits.isEmpty ∨ some port = defaultPort scheme then .ok (none, rest)
  else .ok (some port, rest)

def readHost [NameReader] (scheme : List Char) (kind : SchemeKind) (text : List Char) :
    Except UrlFault (List Char × Option Nat × List Char) := do
  let length := hostLength kind false text
  let rest := text.drop length
  let host ←
    if kind = .web then
      if length = 0 then .error .emptyHost else readWebHost (text.take length)
    else readOtherHost (text.take length)
  match rest with
  | ':' :: after =>
    if host.isEmpty then .error .emptyHost
    else
      let (port, rest) ← readPort scheme after
      pure (host, port, rest)
  | _ => pure (host, none, rest)

/-! ## Paths -/

/-- Whether a segment stands for the segment itself. -/
def isSingleDot (segment : List Char) : Bool :=
  [".", "%2e"].contains (String.ofList (segment.map Char.toLower))

/-- Whether a segment stands for the one before it. -/
def isDoubleDot (segment : List Char) : Bool :=
  ["..", "%2e.", ".%2e", "%2e%2e"].contains (String.ofList (segment.map Char.toLower))

/-- Whether a text is a letter with a colon or a bar, as the drives of some systems are. -/
def isDriveLetter : List Char → Bool
  | [c, mark] => c.isAlpha && (mark == ':' || mark == '|')
  | _ => false

/-- Whether the path of a file is only a drive, which is never left. -/
def isDriveOnly (kind : SchemeKind) (reversed : List (List Char)) : Bool :=
  match kind, reversed with
  | .file, [[c, ':']] => c.isAlpha
  | _, _ => false

/-- A segment in the form in which it is written. -/
def normalSegment (kind : SchemeKind) (first : Bool) (segment : List Char) : List Char :=
  match segment with
  | [c, '|'] => if kind = .file ∧ first ∧ c.isAlpha then [c, ':'] else escapeBy inPath segment
  | _ => escapeBy inPath segment

/-- Resolve the dots among segments. The segments so far are given in reverse. -/
def resolveDots (kind : SchemeKind) (reversed : List (List Char)) :
    List (List Char) → List (List Char)
  | [] => reversed.reverse
  | segment :: rest =>
    let last := rest.isEmpty
    if isDoubleDot segment then
      let shorter := if isDriveOnly kind reversed then reversed else reversed.drop 1
      resolveDots kind (if last then [] :: shorter else shorter) rest
    else if isSingleDot segment then
      resolveDots kind (if last then [] :: reversed else reversed) rest
    else resolveDots kind (normalSegment kind reversed.isEmpty segment :: reversed) rest

/-- Read the segments of a path after its first slash. -/
def readSegments (kind : SchemeKind) (text : List Char) : List (List Char) :=
  let slashed := if kind = .other then text else text.map fun c => if c = '\\' then '/' else c
  let segments := resolveDots kind [] (slashed.splitOn '/')
  if kind = .file then
    match segments.dropWhile (·.isEmpty) with
    | [] => [[]]
    | segments => segments
  else segments

def endsPath (c : Char) : Bool := c == '?' || c == '#'

/-- Read a path that comes after a host. One that is left out is a slash in a web scheme and
    nothing in others. -/
def readPath (kind : SchemeKind) (path : List Char) : UrlPath :=
  match kind, path with
  | .other, [] => .segments []
  | _, '/' :: rest => .segments (readSegments kind rest)
  | .other, path => .segments (readSegments kind path)
  | _, '\\' :: rest => .segments (readSegments kind rest)
  | _, path => .segments (readSegments kind path)

/-! ## Whole URLs -/

/-- Give a URL the query and the fragment that follow its path. -/
def readTail (kind : SchemeKind) (u : Url) (tail : List Char) : Url :=
  let front := tail.takeWhile (· != '#')
  let query :=
    match front with
    | '?' :: query => some (escapeBy (if kind = .other then inQuery else inWebQuery) query)
    | _ => none
  let fragment :=
    match tail.dropWhile (· != '#') with
    | _ :: fragment => some (escapeBy inFragment fragment)
    | [] => none
  { u with query, fragment }

def ofScheme (scheme : List Char) : Url :=
  ⟨scheme, [], none, none, none, .segments [], none, none⟩

/-- Read what follows the two slashes before a host. -/
def readAuthority [NameReader] (scheme : List Char) (kind : SchemeKind) (text : List Char) :
    Except UrlFault Url := do
  let (username, password, rest) ← readUserinfo kind text
  let (host, port, rest) ← readHost scheme kind rest
  if host.isEmpty ∧ (!username.isEmpty ∨ password.isSome) then .error .emptyHost
  let path := readPath kind (rest.takeWhile fun c => !endsPath c)
  let u := { ofScheme scheme with username, password, host := some host, port, path }
  pure (readTail kind u (rest.dropWhile fun c => !endsPath c))

/-- Read a URL of a web scheme after its colon. Slashes before the host do not count. -/
def readWeb [NameReader] (scheme : List Char) (text : List Char) : Except UrlFault Url :=
  readAuthority scheme .web (text.dropWhile fun c => c == '/' || c == '\\')

/-- Read a URL of a file after its colon. The host may be missing, and the name of the own
    machine is the same as none. -/
def readFile [NameReader] (scheme : List Char) (text : List Char) : Except UrlFault Url := do
  let isSlash (c : Char) : Bool := c == '/' || c == '\\'
  let isPathChar (c : Char) : Bool := !endsPath c
  let tail := text.dropWhile isPathChar
  let withoutHost (path : List Char) : Url :=
    readTail .file
      { ofScheme scheme with path := .segments (readSegments .file path) } tail
  match text.takeWhile isPathChar with
  | a :: b :: rest =>
    if isSlash a && isSlash b then
      let name := rest.takeWhile fun c => !isSlash c
      let path := rest.dropWhile fun c => !isSlash c
      if isDriveLetter name then pure (withoutHost rest)
      else if name.isEmpty then pure (withoutHost (path.drop 1))
      else
        let host ← readWebHost name
        if host = "localhost".toList then pure (withoutHost (path.drop 1))
        else
          let u := { ofScheme scheme with
            host := some host, path := .segments (readSegments .file (path.drop 1)) }
          pure (readTail .file u tail)
    else if isSlash a then pure (withoutHost (b :: rest))
    else pure (withoutHost (a :: b :: rest))
  | [a] => pure (withoutHost (if isSlash a then [] else [a]))
  | [] => pure (withoutHost [])

/-- Read a URL of any other scheme after its colon. -/
def readOther [NameReader] (scheme : List Char) (text : List Char) : Except UrlFault Url :=
  let isPathChar (c : Char) : Bool := !endsPath c
  let tail := text.dropWhile isPathChar
  match text.takeWhile isPathChar with
  | '/' :: '/' :: _ => readAuthority scheme .other (text.drop 2)
  | '/' :: rest =>
    .ok (readTail .other { ofScheme scheme with path := .segments (readSegments .other rest) } tail)
  | path =>
    .ok (readTail .other { ofScheme scheme with path := .undivided (escapeBy isControl path) } tail)

def ofText [NameReader] (text : String) : Except UrlFault Url := do
  let (scheme, rest) ← readScheme (significant text)
  match kindOf scheme with
  | .web => readWeb scheme rest
  | .file => readFile scheme rest
  | .other => readOther scheme rest

end SeriesBroker.Url
