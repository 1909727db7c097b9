import TableExport.Url.Basic

/-!
# Reading URLs

A text is read part by part: scheme, user information, host, port, path, query and
fragment. Each part ends at a fixed set of characters, so each is cut off first and
then read on its own.
-/
namespace TableExport.Url

/-- Blanks and controls around a URL do not count; tabs and line ends nowhere do. -/
def cleaned (cs : List Char) : List Char :=
  (((cs.dropWhile (· ≤ ' ')).reverse.dropWhile (· ≤ ' ')).reverse).filter fun c => !Url.isSkipped c

/-- The scheme in lower case, and what follows its colon. -/
def scheme? (cs : List Char) : Option (List Char × List Char) :=
  let isSchemeChar (c : Char) : Bool := c.isAlphanum || c = '+' || c = '-' || c = '.'
  match cs.takeWhile isSchemeChar, cs.dropWhile isSchemeChar with
  | first :: more, ':' :: rest =>
    if first.isAlpha then some ((first :: more).map Char.toLower, rest) else none
  | _, _ => none

def endsAuthority (kind : SchemeKind) (c : Char) : Bool :=
  c = '/' || c = '?' || c = '#' || (kind.isSpecial && c = '\\')

/-- The text before the last `@`, if there is one, and the text after it. -/
def splitUserinfo (cs : List Char) : Option (List Char) × List Char :=
  match cs.reverse.span (· ≠ '@') with
  | (_, []) => (none, cs)
  | (host, _ :: user) => (some user.reverse, host.reverse)

/-- User name and password, encoded. An empty password is none. -/
def readUserinfo (cs : List Char) : List Char × Option (List Char) :=
  match cs.span (· ≠ ':') with
  | (user, []) => (encode userinfoSet user, none)
  | (user, _ :: []) => (encode userinfoSet user, none)
  | (user, _ :: password) => (encode userinfoSet user, some (encode userinfoSet password))

/-- The host up to the first colon outside brackets, and what follows. -/
def cutHost : Bool → List Char → List Char × List Char
  | _, [] => ([], [])
  | inBrackets, c :: rest =>
    if c = ':' && !inBrackets then ([], c :: rest)
    else
      let inside := if c = '[' then true else if c = ']' then false else inBrackets
      let cut := cutHost inside rest
      (c :: cut.1, cut.2)

/-- The port after a colon. A backslash ends it; what follows belongs to the path. -/
def readPort (scheme : List Char) (cs : List Char) : Except UrlError (Option Nat × List Char) :=
  match cs with
  | ':' :: rest =>
    let digits := rest.takeWhile Char.isDigit
    let after := rest.dropWhile Char.isDigit
    let port := Decimal.value digits
    if 65535 < port then .error .invalidPort
    else if !after.isEmpty && after.head? != some '\\' then .error .invalidPort
    else if digits.isEmpty || some port = defaultPort scheme then .ok (none, after)
    else .ok (some port, after)
  | rest => .ok (none, rest)

def isSingleDot (segment : List Char) : Bool :=
  segment = ['.'] || segment.map Char.toLower = "%2e".toList

def isDoubleDot (segment : List Char) : Bool :=
  ["..", "%2e.", ".%2e", "%2e%2e"].any fun dots => segment.map Char.toLower = dots.toList

/-- A letter and a colon or bar: a drive of a file path. -/
def isDrive : List Char → Bool
  | [letter, mark] => letter.isAlpha && (mark = ':' || mark = '|')
  | _ => false

/-- Takes the last segment away; a drive stays. -/
def shorten (segments : List (List Char)) : List (List Char) :=
  match segments.getLast? with
  | some last => if isDrive last then segments else segments.dropLast
  | none => []

def keepSegment (kind : SchemeKind) (segment : List Char) : List Char :=
  match kind, segment with
  | .file, [letter, '|'] => if letter.isAlpha then [letter, ':'] else segment
  | _, segment => segment

/-- Follows the segments of a path. Dot segments leave nothing behind but, at the end,
an empty segment. -/
def follow (kind : SchemeKind) : List (List Char) → List (List Char) → List (List Char)
  | kept, [] => kept
  | kept, [last] =>
    if isDoubleDot last then shorten kept ++ [[]]
    else if isSingleDot last then kept ++ [[]]
    else kept ++ [keepSegment kind last]
  | kept, segment :: rest =>
    if isDoubleDot segment then follow kind (shorten kept) rest
    else if isSingleDot segment then follow kind kept rest
    else follow kind (kept ++ [keepSegment kind segment]) rest

def readSegments (kind : SchemeKind) (cs : List Char) : List (List Char) :=
  let parts := splitOn (fun c => c = '/' || (kind.isSpecial && c = '\\')) cs
  follow kind [] (parts.map (encode pathSet))

/-- Drops empty segments from the front, but not the last one. -/
def trimEmpty : List (List Char) → List (List Char)
  | [] :: second :: rest => trimEmpty (second :: rest)
  | segments => segments

/-- The path after an authority part. It may be missing unless the scheme is special. -/
def readPath (kind : SchemeKind) (cs : List Char) : Path :=
  match kind, cs with
  | .plain, [] => .segments []
  | .plain, '/' :: rest => .segments (readSegments .plain rest)
  | .plain, rest => .segments (readSegments .plain rest)
  | kind, c :: rest =>
    let body := if c = '/' || c = '\\' then rest else c :: rest
    let segments := readSegments kind body
    .segments (if kind = .file then trimEmpty segments else segments)
  | _, [] => .segments [[]]

/-- Path, query and fragment as raw text. -/
def cutTail (cs : List Char) : List Char × Option (List Char) × Option (List Char) :=
  let (front, fragment) := match cs.span (· ≠ '#') with
    | (front, []) => (front, none)
    | (front, _ :: fragment) => (front, some fragment)
  match front.span (· ≠ '?') with
  | (path, []) => (path, none, fragment)
  | (path, _ :: query) => (path, some query, fragment)

def finish (kind : SchemeKind) (url : Url) (query fragment : Option (List Char)) : Url :=
  { url with
    query := query.map (Url.encodeQuery kind)
    fragment := fragment.map (encode fragmentSet) }

/-- The rest of a URL after two slashes. -/
def readAuthority (scheme : List Char) (kind : SchemeKind) (cs : List Char) :
    Except UrlError Url := do
  let authority := cs.takeWhile fun c => !endsAuthority kind c
  let tail := cs.dropWhile fun c => !endsAuthority kind c
  let (userinfo, hostPort) := splitUserinfo authority
  if userinfo = some [] ∧ hostPort = [] ∧ tail ≠ [] then .error .emptyHost
  let (username, password) := readUserinfo (userinfo.getD [])
  let (hostText, portText) := cutHost false hostPort
  if kind = .web ∧ hostText = [] then .error .emptyHost
  let host ← if kind.isSpecial then domainHost hostText else plainHost hostText
  if host = .empty ∧ (portText ≠ [] ∨ username ≠ [] ∨ password.isSome) then .error .emptyHost
  let (port, rest) ← readPort scheme portText
  let (path, query, fragment) := cutTail (rest ++ tail)
  pure (finish kind
    { scheme := scheme, username := username, password := password, host := some host,
      port := port, path := readPath kind path } query fragment)

/-- The host of a file URL: none for `localhost`, and none if a drive stands there. -/
def readFile (cs : List Char) : Except UrlError Url := do
  let isSlash (c : Char) : Bool := c = '/' || c = '\\'
  let withHost : Bool := match cs with
    | a :: b :: _ => isSlash a && isSlash b
    | _ => false
  let body := if withHost then cs.drop 2 else cs
  let hostText := if withHost then body.takeWhile fun c => !endsAuthority .file c else []
  let (hostText, rest) :=
    if isDrive hostText then ([], body) else (hostText, body.drop hostText.length)
  let host ← if hostText = [] then pure Host.empty else domainHost hostText
  let host := if host = .name "localhost".toList then Host.empty else host
  let (path, query, fragment) := cutTail rest
  pure (finish .file
    { scheme := "file".toList, host := some host, path := readPath .file path } query fragment)

/-- The rest of a URL after the colon of its scheme. -/
def readAfterScheme (scheme cs : List Char) : Except UrlError Url :=
  match SchemeKind.of scheme with
  | .file => readFile cs
  | .web => readAuthority scheme .web (cs.dropWhile fun c => c = '/' || c = '\\')
  | .plain =>
    match cs with
    | '/' :: '/' :: rest => readAuthority scheme .plain rest
    | cs =>
      let (path, query, fragment) := cutTail cs
      let path := match path with
        | '/' :: rest => Path.segments (readSegments .plain rest)
        | text => Path.rootless (encode isControl text)
      .ok (finish .plain { scheme := scheme, path := path } query fragment)

def parse (text : String) : Except UrlError Url :=
  match scheme? (cleaned text.toList) with
  | none => .error .relative
  | some (scheme, rest) => readAfterScheme scheme rest

def mask : List Char := "****".toList

/-- The URL with its password masked. What is no URL is left out altogether. -/
def redact (text : String) : String :=
  match parse text with
  | .error _ => "<redacted>"
  | .ok url =>
    let shown := if url.password.isSome then (url.withPassword mask).getD url else url
    String.ofList shown.text

end TableExport.Url
