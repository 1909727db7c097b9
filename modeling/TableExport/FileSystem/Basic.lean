import TableExport.FileSystem.Path

/-!
# Files and directories

A file system is a list of places with what stands there. A place is the list of
names that leads to it from the root. Paths are resolved step by step, so a
missing or wrong part on the way is noticed before the end is looked at.

There are no symbolic links and no hard links: a directory has the place that its
names say, and no two places share a content. All that is said about writing to
directories rests on that.
-/
namespace TableExport

/-- The names from the root down. -/
abbrev Place := List String

inductive Node
  | directory
  | file (content : Bytes)
  deriving DecidableEq, Repr

/-- All files and directories, and the directory that relative paths start from. -/
structure FileSystem where
  nodes : List (Place × Node)
  current : Place := []
  deriving Repr

namespace FileSystem

/-- What stands at a place. The root is always a directory. -/
def node? (fs : FileSystem) (place : Place) : Option Node :=
  if place = [] then some .directory
  else (fs.nodes.find? fun entry => entry.1 == place).map (·.2)

/-- Puts a node at a place, replacing what stood there. -/
def set (fs : FileSystem) (place : Place) (node : Node) : FileSystem :=
  if fs.nodes.any fun entry => entry.1 == place then
    { fs with nodes := fs.nodes.map fun entry => if entry.1 == place then (place, node) else entry }
  else { fs with nodes := fs.nodes ++ [(place, node)] }

def content? (fs : FileSystem) (place : Place) : Option Bytes :=
  match fs.node? place with
  | some (.file content) => some content
  | _ => none

/-- Why a path leads nowhere. -/
inductive Trouble
  -- A directory on the way does not exist.
  | missing
  -- A part on the way is a file, or a name is too long.
  | blocked
  deriving DecidableEq, Repr

/-- Follows parts from a place. All parts before the last must be directories; the
last one need not exist. -/
def walk (fs : FileSystem) : Place → List String → Except Trouble Place
  | place, [] => .ok place
  | place, part :: rest =>
    match fs.node? place with
    | none => .error .missing
    | some (.file _) => .error .blocked
    | some .directory =>
      if part = "." then fs.walk place rest
      else if part = ".." then fs.walk place.dropLast rest
      else if longestName < part.utf8ByteSize then .error .blocked
      else fs.walk (place ++ [part]) rest

def resolve (fs : FileSystem) (path : String) : Except Trouble Place :=
  bif isUsable path then fs.walk (bif isAbsolute path then [] else fs.current) (steps path)
  else if path = "" then .error .missing
  else .error .blocked

def isDirectory (fs : FileSystem) (path : String) : Bool :=
  match fs.resolve path with
  | .ok place => fs.node? place = some .directory
  | .error _ => false

/-- What a path names, if it exists. -/
def read? (fs : FileSystem) (path : String) : Option Bytes :=
  match fs.resolve path with
  | .ok place => bif endsInSlash path then none else fs.content? place
  | .error _ => none

def isFile (fs : FileSystem) (path : String) : Bool := (fs.read? path).isSome

/-- Makes one directory whose parent exists. -/
def makeDirectory (fs : FileSystem) (path : String) : Except Trouble FileSystem :=
  match fs.resolve path with
  | .error trouble => .error trouble
  | .ok place => if (fs.node? place).isSome then .error .blocked else .ok (fs.set place .directory)

/-- Makes a directory, if it does not exist yet; says whether it exists now. -/
def ensureOne (fs : FileSystem) (path : String) : Bool × FileSystem :=
  match fs.makeDirectory path with
  | .ok made => (true, made)
  | .error _ => (fs.isDirectory path, fs)

/-- Makes a directory with its missing ancestors. Ancestors are made only when the
directory itself cannot be made for want of one. The count bounds the number of
ancestors tried. -/
def ensureWithin : Nat → FileSystem → String → Bool × FileSystem
  | 0, fs, _ => (false, fs)
  | depth + 1, fs, path =>
    if path = "" then (true, fs)
    else
      match fs.makeDirectory path, parent? path with
      | .ok made, _ => (true, made)
      | .error .blocked, _ => (fs.isDirectory path, fs)
      | .error .missing, none => (false, fs)
      | .error .missing, some above =>
        match ensureWithin depth fs above with
        | (true, fs) => fs.ensureOne path
        | (false, fs) => (false, fs)

/-- Makes a directory with its missing ancestors; says whether it exists now. Each
parent is shorter than its path. -/
def ensureDirectory (fs : FileSystem) (path : String) : Bool × FileSystem :=
  ensureWithin (path.length + 1) fs path

/-- Creates an empty file, or empties an existing one, and gives its place. -/
def create? (fs : FileSystem) (path : String) : Option (Place × FileSystem) :=
  match fs.resolve path with
  | .error _ => none
  | .ok place =>
    bif endsInSlash path || fs.node? place = some .directory then none
    else some (place, fs.set place (.file []))

/-- Content overwritten from an offset on. A gap before the offset is filled with zeros.
Writing nothing changes nothing. -/
def overwrite (content : Bytes) (offset : Nat) (data : Bytes) : Bytes :=
  if data = [] then content
  else
    content.take offset ++ List.replicate (offset - content.length) 0 ++ data ++
      content.drop (offset + data.length)

def writeAt (fs : FileSystem) (place : Place) (offset : Nat) (data : Bytes) : FileSystem :=
  match fs.content? place with
  | some content => fs.set place (.file (overwrite content offset data))
  | none => fs

end FileSystem

end TableExport
