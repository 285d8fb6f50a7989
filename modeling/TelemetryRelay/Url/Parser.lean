import TelemetryRelay.Url.Basic

/-!
# Reading URLs

The reader for absolute URLs. Blanks and controls around the text and line breaks inside it are
dropped; the scheme decides how the host is read and whether a backslash counts as a slash.
-/

namespace TelemetryRelay.Url

/-- The three ways in which the text behind a scheme is read. -/
inductive SchemeKind where
  | file
  | special
  | other
deriving DecidableEq, Repr

/-- The kind of a scheme. -/
def SchemeKind.of : String → SchemeKind
  | "file" => .file
  | "http" => .special
  | "https" => .special
  | "ws" => .special
  | "wss" => .special
  | "ftp" => .special
  | _ => .other

/-- A character that only delimits: a slash, and for special schemes a backslash. -/
def SchemeKind.isSlash (kind : SchemeKind) (c : Char) : Bool :=
  c == '/' || (c == '\\' && kind != .other)

/-- The characters that end the authority. -/
def SchemeKind.endsAuthority (kind : SchemeKind) (c : Char) : Bool :=
  kind.isSlash c || c == '?' || c == '#'

/-- Printable ASCII. -/
def isPrintable (c : Char) : Bool := 0x20 ≤ c.toNat && c.toNat < 0x7F

/-- The characters that stand for themselves in a fragment. -/
def standsInFragment (c : Char) : Bool :=
  isPrintable c && !([' ', '"', '<', '>', '\x60'].contains c)

/-- The characters that stand for themselves in a path. -/
def standsInPath (c : Char) : Bool := standsInFragment c && !(['#', '?', '\x7b', '\x7d'].contains c)

/-- The characters that stand for themselves in a user name or a password. -/
def standsInCredentials (c : Char) : Bool :=
  standsInPath c && !(['/', ':', ';', '=', '@', '[', '\\', ']', '^', '|'].contains c)

/-- The characters that stand for themselves in a query. -/
def SchemeKind.standsInQuery (kind : SchemeKind) (c : Char) : Bool :=
  isPrintable c && !([' ', '"', '#', '<', '>'].contains c) && (c != '\'' || kind == .other)

/-- Controls and spaces, which are dropped at both ends of the text. -/
def isMargin (c : Char) : Bool := c.toNat ≤ 0x20

/-- The text without its margins and line breaks. -/
def cleaned (s : String) : List Char :=
  let inner := ((s.toList.dropWhile isMargin).reverse.dropWhile isMargin).reverse
  inner.filter fun c => c != '\t' && c != '\n' && c != '\r'

/-- A letter of the alphabet. -/
def isLetter (c : Char) : Bool := ('a' ≤ c && c ≤ 'z') || ('A' ≤ c && c ≤ 'Z')

/-- The characters of schemes after the first. -/
def isSchemeChar (c : Char) : Bool :=
  isLetter c || ('0' ≤ c && c ≤ '9') || c == '+' || c == '-' || c == '.'

/-- The scheme in lower case, and the text behind its colon. -/
def splitScheme (cs : List Char) : Option (String × List Char) :=
  match cs with
  | [] => none
  | c :: _ =>
    if isLetter c then
      match cs.dropWhile isSchemeChar with
      | ':' :: rest => some (Text.lowerAscii (String.ofList (cs.takeWhile isSchemeChar)), rest)
      | _ => none
    else none

/-- What stands before the last `@` of the authority, and the text behind it. -/
def splitCredentials (kind : SchemeKind) (cs : List Char) : Option (List Char × List Char) :=
  let region := cs.takeWhile fun c => !kind.endsAuthority c
  if region.contains '@' then
    let host := region.reverse.takeWhile (· ≠ '@')
    let before := region.length - host.length
    some (region.take (before - 1), cs.drop before)
  else none

/-- Escapes a user name or a password. -/
def escapeCredentials (cs : List Char) : String :=
  Percent.encode standsInCredentials (String.ofList cs)

/-- User name and password: the first colon is between them. -/
def readCredentials (cs : List Char) : String × String :=
  (escapeCredentials (cs.takeWhile (· ≠ ':')), escapeCredentials ((cs.dropWhile (· ≠ ':')).drop 1))

/-- Splits the host off: it ends at a colon outside brackets or where the authority ends. -/
def splitHost (kind : SchemeKind) (bracketed : Bool) : List Char → List Char × List Char
  | [] => ([], [])
  | c :: cs =>
    if (c = ':' ∧ !bracketed) || kind.endsAuthority c then ([], c :: cs)
    else
      let inside := if c = '[' then true else if c = ']' then false else bracketed
      let (host, rest) := splitHost kind inside cs
      (c :: host, rest)

/-- Reads a port behind its colon, up to where the authority ends. -/
def readPort (scheme : String) (cs : List Char) : Except UrlFault (Option Nat × List Char) :=
  let ds := cs.takeWhile Decimal.isDigit
  let rest := cs.drop ds.length
  if Decimal.value ds > 65535 then .error .invalidPort
  else
    match rest with
    | c :: _ =>
      if c = '/' ∨ c = '\\' ∨ c = '?' ∨ c = '#' then .ok (port ds, rest) else .error .invalidPort
    | [] => .ok (port ds, rest)
where
  /-- The port of some digits, unless there are none or it is the scheme's own. -/
  port (ds : List Char) : Option Nat :=
    if ds.isEmpty ∨ defaultPort? scheme = some (Decimal.value ds) then none
    else some (Decimal.value ds)

/-- Whether a segment stands for its own level. -/
def isSingleDot (segment : String) : Bool :=
  [".", "%2e"].contains (Text.lowerAscii segment)

/-- Whether a segment stands for the level above. -/
def isDoubleDot (segment : String) : Bool :=
  ["..", ".%2e", "%2e.", "%2e%2e"].contains (Text.lowerAscii segment)

/-- Takes the segments of a path one after the other; dots move between the levels. -/
def resolve (levels : List String) : List String → List String
  | [] => levels
  | [last] =>
    if isDoubleDot last then levels.dropLast ++ [""]
    else if isSingleDot last then levels ++ [""]
    else levels ++ [last]
  | segment :: rest =>
    if isDoubleDot segment then resolve levels.dropLast rest
    else if isSingleDot segment then resolve levels rest
    else resolve (levels ++ [segment]) rest

/-- The segments between slashes, escaped. -/
def rawSegments (kind : SchemeKind) (cs : List Char) : List String :=
  (cs.splitOnP kind.isSlash).map fun segment => Percent.encode standsInPath (String.ofList segment)

/-- Reads the path behind an authority. A special URL always has one. -/
def readPath (kind : SchemeKind) (cs : List Char) : List String :=
  match cs with
  | [] => if kind = .other then [] else [""]
  | c :: rest => resolve [] (rawSegments kind (if kind.isSlash c then rest else cs))

/-- The parts behind the authority: path, query and fragment, each up to the next mark. -/
def splitTail (cs : List Char) : List Char × Option (List Char) × Option (List Char) :=
  let path := cs.takeWhile fun c => c != '?' && c != '#'
  match cs.drop path.length with
  | '?' :: rest =>
    let query := rest.takeWhile (· ≠ '#')
    match rest.drop query.length with
    | '#' :: fragment => (path, some query, some fragment)
    | _ => (path, some query, none)
  | '#' :: fragment => (path, none, some fragment)
  | _ => (path, none, none)

/-- Adds what stands behind the authority to a URL. -/
def withTail (kind : SchemeKind) (path : List Char → UrlPath) (u : Url) (cs : List Char) : Url :=
  let (pathText, query, fragment) := splitTail cs
  { u with
    path := path pathText
    query := query.map fun q => Percent.encode kind.standsInQuery (String.ofList q)
    fragment := fragment.map fun f => Percent.encode standsInFragment (String.ofList f) }

/-- Reads the host as the scheme wants it; none if it is empty where it may be. -/
def readHost (kind : SchemeKind) (cs : List Char) : Except UrlFault (Option Host) :=
  match kind with
  | .other =>
    match Host.parseOpaque cs with
    | .error fault => .error fault
    | .ok host => .ok (if cs.isEmpty then none else some host)
  | _ => if cs.isEmpty then .error .emptyHost else (Host.parseSpecial cs).map some

/-- Reads host, port and what follows. -/
def readLocation (kind : SchemeKind) (u : Url) (cs : List Char) : Except UrlFault Url :=
  let (hostText, rest) := splitHost kind false cs
  match readHost kind hostText with
  | .error fault => .error fault
  | .ok host =>
    let named : Bool := !(u.username.isEmpty && u.password.isEmpty)
    let finish (port : Option Nat) (rest : List Char) : Except UrlFault Url :=
      if host.isNone && named then .error .emptyHost
      else .ok (withTail kind (fun p => .segments (readPath kind p)) { u with host, port } rest)
    match rest with
    | ':' :: more =>
      if host.isNone then .error .emptyHost
      else
        match readPort u.scheme more with
        | .error fault => .error fault
        | .ok (port, rest) => finish port rest
    | _ => finish none rest

/-- Reads what follows the two slashes. -/
def readAuthority (kind : SchemeKind) (scheme : String) (cs : List Char) : Except UrlFault Url :=
  match splitCredentials kind cs with
  | none => readLocation kind { scheme } cs
  | some (credentials, rest) =>
    if credentials.isEmpty && rest.head?.any kind.endsAuthority then .error .emptyHost
    else
      let (username, password) := readCredentials credentials
      readLocation kind { scheme, username, password } rest

/-- Whether a text is a letter and a colon or a bar, as the drives of some systems are named. -/
def isDriveName : List Char → Bool
  | [a, b] => isLetter a && (b == ':' || b == '|')
  | _ => false

/-- Reads a file URL; only one that names another machine has a host. -/
def readFile (cs : List Char) : Except UrlFault Url :=
  let bare : Except UrlFault Url := .ok { scheme := "file" }
  match cs with
  | a :: b :: rest =>
    if SchemeKind.file.isSlash a && SchemeKind.file.isSlash b then
      let hostText := rest.takeWhile fun c => !SchemeKind.file.endsAuthority c
      if hostText.isEmpty || isDriveName hostText then bare
      else
        match Host.parseSpecial hostText with
        | .error fault => .error fault
        | .ok host =>
          if host = .domain "localhost" then bare
          else
            let path (p : List Char) : UrlPath :=
              let levels := (readPath .file p).dropWhile (·.isEmpty)
              .segments (if levels.isEmpty then [""] else levels)
            let u := withTail .file path { scheme := "file", host := some host }
              (rest.drop hostText.length)
            match u.path with
            | .segments (first :: _) =>
              if isDriveName first.toList then bare else .ok u
            | _ => .ok u
    else bare
  | _ => bare

/-- **Reads an absolute URL.** -/
def parse (s : String) : Except UrlFault Url :=
  match splitScheme (cleaned s) with
  | none => .error .relativeWithoutBase
  | some (scheme, rest) =>
    match SchemeKind.of scheme with
    | .file => readFile rest
    | .special => readAuthority .special scheme (rest.dropWhile SchemeKind.special.isSlash)
    | .other =>
      match rest with
      | '/' :: '/' :: more => readAuthority .other scheme more
      | '/' :: more => .ok (withTail .other (fun p => .segments (readPath .other ('/' :: p)))
          { scheme } more)
      | more => .ok (withTail .other (fun p => .whole (String.ofList p)) { scheme } more)

end TelemetryRelay.Url
