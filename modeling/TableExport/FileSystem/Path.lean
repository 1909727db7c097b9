import TableExport.Bytes

/-!
# Path texts

Paths as they are written: joining a name to a directory, and the parent of a
path, both on the text, without looking at any file.
-/
namespace TableExport.FileSystem

/-- The parts of a text between slashes, empty ones included. -/
def segments (path : List Char) : List (List Char) :=
  match path with
  | [] => [[]]
  | c :: rest =>
    match segments rest with
    | [] => [[]]
    | first :: more => if c = '/' then [] :: first :: more else (c :: first) :: more

def isAbsolute (path : String) : Bool := path.toList.head? = some '/'

/-- A name below a directory. An absolute name stands for itself. -/
def join (directory name : String) : String :=
  bif isAbsolute name then name
  else if directory = "" ∨ directory.toList.getLast? = some '/' then directory ++ name
  else directory ++ "/" ++ name

/-- Whether a part that is not the first one names nothing: no text, or one dot. -/
def isIdle (part : List Char) : Bool := part = [] || part = ['.']

/-- Drops idle parts from the end, keeping the first part. Parts come in reverse. -/
def dropIdle : List (List Char) → List (List Char)
  | [] => []
  | [first] => [first]
  | part :: rest => if isIdle part then dropIdle rest else part :: rest

/-- The text of parts. A single empty part is the root. -/
def ofSegments (parts : List (List Char)) : String :=
  if parts = [[]] then "/" else String.ofList (['/'].intercalate parts)

/-- The path without its last part; nothing for the root and for the empty path. -/
def parent? (path : String) : Option String :=
  match dropIdle (segments path.toList).reverse with
  | [] | [[]] => none
  | [_] => some ""
  | _ :: rest => some (ofSegments (dropIdle rest).reverse)

/-- The parts that lead from a starting directory to the file. -/
def steps (path : String) : List String :=
  ((segments path.toList).filter (· ≠ [])).map String.ofList

/-- Whether the text can only name a directory. -/
def endsInSlash (path : String) : Bool := path.toList.getLast? = some '/'

/-- Whether the system takes the text as a path at all. -/
def isUsable (path : String) : Bool :=
  path ≠ "" && path.utf8ByteSize < 4096 && !path.toList.contains '\x00'

def longestName : Nat := 255

end TableExport.FileSystem
