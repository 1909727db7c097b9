import TableExport.Url.Host

/-!
# URLs

The parts of a URL as they are written, with everything percent-encoded that its part
does not allow. Reading a URL and writing it gives its normal form.
-/
namespace TableExport

/-- A path: segments after a slash each, or a text without a leading slash. -/
inductive Url.Path
  | segments (list : List (List Char))
  | rootless (text : List Char)
  deriving DecidableEq, Repr

/-- A URL. A password is never empty. Without a host there is no authority part, which
is not the same as an empty host. -/
structure Url where
  scheme : List Char
  username : List Char := []
  password : Option (List Char) := none
  host : Option Url.Host := none
  port : Option Nat := none
  path : Url.Path
  query : Option (List Char) := none
  fragment : Option (List Char) := none
  deriving DecidableEq, Repr

namespace Url

/-- The kinds of schemes. Special schemes have a host and a path of segments. -/
inductive SchemeKind
  | file
  | web
  | plain
  deriving DecidableEq, Repr

def SchemeKind.of (scheme : List Char) : SchemeKind :=
  if scheme = "file".toList then .file
  else if ["http", "https", "ws", "wss", "ftp"].any fun known => scheme = known.toList then .web
  else .plain

def SchemeKind.isSpecial (kind : SchemeKind) : Bool := kind != .plain

/-- The port that a scheme has without naming it. -/
def defaultPort (scheme : List Char) : Option Nat :=
  if scheme = "http".toList ∨ scheme = "ws".toList then some 80
  else if scheme = "https".toList ∨ scheme = "wss".toList then some 443
  else if scheme = "ftp".toList then some 21
  else none

def Path.text : Path → List Char
  | .segments list => list.flatMap fun segment => '/' :: segment
  | .rootless text => text

def userinfoText (url : Url) : List Char :=
  match url.password with
  | some password => url.username ++ ':' :: password ++ ['@']
  | none => if url.username.isEmpty then [] else url.username ++ ['@']

def portText (url : Url) : List Char :=
  match url.port with
  | some port => ':' :: Decimal.digits port
  | none => []

/-- What stands between the scheme and the path. A path that begins with two slashes
needs a mark, so that it is not taken for a host. -/
def authorityText (url : Url) : List Char :=
  match url.host with
  | some host => '/' :: '/' :: url.userinfoText ++ host.text ++ url.portText
  | none => if ['/', '/'].isPrefixOf url.path.text then ['/', '.'] else []

/-- A part after its mark, if there is one. -/
def marked (mark : Char) : Option (List Char) → List Char
  | some text => mark :: text
  | none => []

def text (url : Url) : List Char :=
  url.scheme ++ ':' :: url.authorityText ++ url.path.text ++ marked '?' url.query ++
    marked '#' url.fragment

def takesUserinfo (url : Url) : Bool :=
  match url.host with
  | none | some .empty => false
  | some _ => SchemeKind.of url.scheme != .file

/-- The URL with another user name; nothing if it cannot have one. -/
def withUsername (url : Url) (username : List Char) : Option Url :=
  if url.takesUserinfo then some { url with username := encode userinfoSet username } else none

/-- The URL with another password; nothing if it cannot have one. -/
def withPassword (url : Url) (password : List Char) : Option Url :=
  if url.takesUserinfo then
    some { url with
      password := if password.isEmpty then none else some (encode userinfoSet password) }
  else none

/-- Tabs and line ends do not count anywhere in a URL. -/
def isSkipped (c : Char) : Bool := c = '\t' || c = '\n' || c = '\r'

def encodeQuery (kind : SchemeKind) (cs : List Char) : List Char :=
  encode (if kind.isSpecial then specialQuerySet else querySet) cs

def withQuery (url : Url) (query : List Char) : Url :=
  { url with query := some (encodeQuery (SchemeKind.of url.scheme)
      (query.filter fun c => !isSkipped c)) }

end Url

end TableExport
