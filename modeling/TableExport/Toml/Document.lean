import TableExport.Toml.Scalar

/-!
# Settings files

A document is a sequence of lines: keys with values, and headers that say in which
table the following keys stand. Reading it gives the entries of the root table, or
nothing if a line is malformed, a key stands twice, or a table is extended that may not
be extended.
-/
namespace TableExport.Toml

/-- Items between separators up to a closing bracket; a separator may stand at the end.
The count bounds the number of items. -/
def arrayItems? (item : List Char → Read Value) : Nat → List Char → Read (List Value)
  | 0, _ => none
  | fuel + 1, cs =>
    match skipLines cs.length cs with
    | none => none
    | some (']' :: rest) => some ([], rest)
    | some cs =>
      (item cs).bind fun (value, rest) =>
        match skipLines rest.length rest with
        | some (',' :: rest) =>
          (arrayItems? item fuel rest).map fun (values, rest) => (value :: values, rest)
        | some (']' :: rest) => some ([value], rest)
        | _ => none

/-- A key, an equals sign and a value. -/
def pair? (item : List Char → Read Value) (cs : List Char) : Read (List String × Value) :=
  (key? deepest cs).bind fun (path, rest) =>
    match rest with
    | '=' :: rest => (item (skipBlanks rest)).map fun (value, rest) => ((path, value), rest)
    | _ => none

/-- Pairs between separators up to a closing brace, all on one line. -/
def tablePairs? (item : List Char → Read Value) :
    Nat → List Char → Read (List (List String × Value))
  | 0, _ => none
  | fuel + 1, cs =>
    (pair? item cs).bind fun (pair, rest) =>
      match skipBlanks rest with
      | ',' :: rest => (tablePairs? item fuel rest).map fun (pairs, rest) => (pair :: pairs, rest)
      | '\x7d' :: rest => some ([pair], rest)
      | _ => none

/-- A table between braces, after the first of them. -/
def inlineTable? (item : List Char → Read Value) (cs : List Char) : Read Value :=
  match skipBlanks cs with
  | '\x7d' :: rest => some (.table .inline [], rest)
  | cs =>
    (tablePairs? item cs.length cs).bind fun (pairs, rest) =>
      (Entries.insertAll [] pairs).map fun entries => (.table .inline entries, rest)

/-- A value. Arrays and tables may be nested as deeply as the count says. -/
def value? : Nat → List Char → Read Value
  | depth, cs =>
    match cs, depth with
    | '[' :: rest, depth + 1 =>
      (arrayItems? (value? depth) (rest.length + 1) rest).map fun (items, rest) =>
        (.array items, rest)
    | '\x7b' :: rest, depth + 1 => inlineTable? (value? depth) rest
    | '[' :: _, 0 | '\x7b' :: _, 0 => none
    | 't' :: 'r' :: 'u' :: 'e' :: rest, _ => some (.boolean true, rest)
    | 'f' :: 'a' :: 'l' :: 's' :: 'e' :: rest, _ => some (.boolean false, rest)
    | c :: rest, _ =>
      if c = '"' ∨ c = '\'' then (text? (c :: rest)).map fun (s, rest) => (.text s, rest)
      else number? (c :: rest)
    | [], _ => none

inductive Header
  | table (path : List String)
  -- One more of the tables that repeat this header.
  | element (path : List String)
  deriving DecidableEq, Repr

inductive Line
  | header (header : Header)
  | pair (path : List String) (value : Value)
  deriving Repr

/-- A line and the lines after it; `none` in place of an empty line. -/
def line? (cs : List Char) : Read (Option Line) :=
  match skipBlanks cs with
  | '[' :: '[' :: rest =>
    (key? deepest rest).bind fun (path, rest) =>
      match rest with
      | ']' :: ']' :: rest =>
        (endOfLine? rest).map fun rest => (some (.header (.element path)), rest)
      | _ => none
  | '[' :: rest =>
    (key? deepest rest).bind fun (path, rest) =>
      match rest with
      | ']' :: rest => (endOfLine? rest).map fun rest => (some (.header (.table path)), rest)
      | _ => none
  | [] => some (none, [])
  | c :: rest =>
    if c = '#' ∨ c = '\n' ∨ c = '\r' then (endOfLine? (c :: rest)).map fun rest => (none, rest)
    else
      (pair? (value? deepest) (c :: rest)).bind fun ((path, value), rest) =>
        (endOfLine? rest).map fun rest => (some (.pair path value), rest)

/-- All lines. The count bounds their number. -/
def lines? : Nat → List Char → Option (List Line)
  | _, [] => some []
  | 0, _ => none
  | fuel + 1, cs =>
    (line? cs).bind fun (line, rest) =>
      (lines? fuel rest).map fun lines =>
        match line with
        | some line => line :: lines
        | none => lines

/-- A header with the keys after it, up to the next header. -/
structure Section where
  header : Header
  pairs : List (List String × Value)
  deriving Repr

/-- The keys before the first header, and the sections. -/
def sections : List Line → List (List String × Value) × List Section
  | [] => ([], [])
  | .pair path value :: rest =>
    let later := sections rest
    ((path, value) :: later.1, later.2)
  | .header header :: rest =>
    let later := sections rest
    ([], ⟨header, later.1⟩ :: later.2)

/-- Adds a section. A table may be named once; before that it may have been passed
through by the headers of tables inside it. -/
def addSection (root : Entries) (s : Section) : Option Entries :=
  let path := match s.header with | .table path => path | .element path => path
  match path.getLast? with
  | none => none
  | some key =>
    Entries.within .passed (fun origin => origin != .inline)
      (fun _ parent =>
        match s.header, parent.get? key with
        | .table _, none =>
          (Entries.insertAll [] s.pairs).map fun es => parent.put key (.table .header es)
        | .table _, some (.table .passed below) =>
          (Entries.insertAll below s.pairs).map fun es => parent.put key (.table .header es)
        | .element _, none =>
          (Entries.insertAll [] s.pairs).map fun es => parent.put key (.tables [es])
        | .element _, some (.tables list) =>
          (Entries.insertAll [] s.pairs).map fun es => parent.put key (.tables (list ++ [es]))
        | _, _ => none)
      path.dropLast false root

def dropMark : List Char → List Char
  | '\ufeff' :: rest => rest
  | cs => cs

def parse? (text : String) : Option Entries := do
  let cs := dropMark text.toList
  let (top, parts) := sections (← lines? (cs.length + 1) cs)
  let root ← Entries.insertAll [] top
  parts.foldlM addSection root

end TableExport.Toml
