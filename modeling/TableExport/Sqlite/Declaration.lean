import TableExport.Sqlite.Collation

/-!
# Declared columns

The words after a column's name up to the first constraint are its declared type.
It decides the type name that is reported for the column, and how strongly stored
values are turned towards a storage class.

Among the constraints the word COLLATE names the column's collation. Within
brackets, quotes and comments it is no constraint.
-/
namespace TableExport.Sqlite

open Decimal (Binary64)

def occurs (word : List Char) : List Char → Bool
  | [] => word.isEmpty
  | c :: rest => word.isPrefixOf (c :: rest) || occurs word rest

/-- Whether one of the words occurs in a text, with ASCII letter case ignored. -/
def mentions (text : String) (words : List String) : Bool :=
  words.any fun word => occurs word.toList (text.toList.map Char.toLower)

/-- The words that end a declared type. -/
def constraintWords : List String :=
  ["primary", "not", "null", "unique", "check", "default", "collate", "references",
    "constraint", "generated", "as"]

def declaredType (definition : String) : String :=
  let words := ((definition.toList.splitOn ' ').map String.ofList).takeWhile fun word =>
    !constraintWords.any fun constraint => Text.sameLetters word constraint
  " ".intercalate words

/-- The type name that is reported for a declared type. -/
def typeName (declared : String) : String :=
  let word := String.ofList (declared.toList.map Char.toLower)
  bif ["int4", "int8"].contains word then "INTEGER"
  else bif ["boolean", "bool"].contains word then "BOOLEAN"
  else bif word = "date" then "DATE"
  else bif word = "time" then "TIME"
  else bif ["datetime", "timestamp"].contains word then "DATETIME"
  else bif mentions word ["int"] then "INTEGER"
  else bif mentions word ["char", "clob", "text"] then "TEXT"
  else bif mentions word ["blob"] then "BLOB"
  else bif mentions word ["real", "floa", "doub"] then "REAL"
  else "NULL"

/-- What a column turns its values towards. -/
inductive Affinity
  | integer
  | text
  | free
  | real
  | numeric
  deriving DecidableEq, Repr

def affinity (declared : String) : Affinity :=
  bif mentions declared ["int"] then .integer
  else bif mentions declared ["char", "clob", "text"] then .text
  else bif declared = "" || mentions declared ["blob"] then .free
  else bif mentions declared ["real", "floa", "doub"] then .real
  else .numeric

/-- The form in which a column keeps a number. Texts and blobs stay as they are. -/
def Affinity.keep (a : Affinity) (stored : Stored) : Stored :=
  match a, stored with
  | .real, .integer n => .real (.ofInt n.toInt)
  | .real, .real x => if x.toInt? = some 0 then .real .zero else .real x
  | .integer, .real x | .numeric, .real x =>
    match x.toInt? with
    | some n =>
      if Int64.minValue.toInt < n ∧ n < Int64.maxValue.toInt then .integer (Int64.ofInt n)
      else .real x
    | none => .real x
  | .text, .integer n => .text (Bytes.ofText (Decimal.integer n.toInt))
  | _, stored => stored

/-! ## The collation of a column -/

/-- A piece of a definition. Other characters stand between the pieces. -/
inductive Lexeme
  | word (text : String)
  | quoted (text : String)
  | opening
  | closing
  deriving DecidableEq, Repr

/-- What is being read of a definition. Characters of an unfinished piece are kept. -/
inductive Reading
  | between
  | word (text : List Char)
  | quoted (mark : Char) (text : List Char)
  -- A closing mark was read; another one stands for itself.
  | marked (mark : Char) (text : List Char)
  | dash
  | lineComment
  | slash
  | blockComment
  | star

def isWordChar (c : Char) : Bool := c.isAlphanum || c = '_' || c = '$' || 0x80 ≤ c.toNat

namespace Reading

/-- The state after the first character of something new. -/
def start (c : Char) : List Lexeme × Reading :=
  if isWordChar c then ([], .word [c])
  else if c = '\'' || c = '"' || c = '\x60' then ([], .quoted c [])
  else if c = '[' then ([], .quoted ']' [])
  else if c = '(' then ([.opening], .between)
  else if c = ')' then ([.closing], .between)
  else if c = '-' then ([], .dash)
  else if c = '/' then ([], .slash)
  else ([], .between)

/-- Ends a piece, and starts something new. -/
def after (piece : Lexeme) (c : Char) : List Lexeme × Reading :=
  (piece :: (start c).1, (start c).2)

/-- The pieces that a character ends, and the state behind it. -/
def advance (c : Char) : Reading → List Lexeme × Reading
  | .between => start c
  | .word text =>
    if isWordChar c then ([], .word (text ++ [c])) else after (.word (String.ofList text)) c
  | .quoted mark text => ([], if c = mark then .marked mark text else .quoted mark (text ++ [c]))
  | .marked mark text =>
    -- A closing bracket cannot be doubled.
    if c = mark ∧ mark ≠ ']' then ([], .quoted mark (text ++ [c]))
    else after (.quoted (String.ofList text)) c
  | .dash => if c = '-' then ([], .lineComment) else start c
  | .lineComment => ([], if c = '\n' then .between else .lineComment)
  | .slash => if c = '*' then ([], .blockComment) else start c
  | .blockComment => ([], if c = '*' then .star else .blockComment)
  | .star => ([], if c = '/' then .between else if c = '*' then .star else .blockComment)

/-- The piece at the end of a definition. -/
def last : Reading → List Lexeme
  | .word text => [.word (String.ofList text)]
  | .marked _ text => [.quoted (String.ofList text)]
  | _ => []

end Reading

def lexemes : Reading → List Char → List Lexeme
  | reading, [] => reading.last
  | reading, c :: rest => (reading.advance c).1 ++ lexemes (reading.advance c).2 rest

/-- Whether a piece is the word COLLATE in any letter case. -/
def Lexeme.isCollate : Lexeme → Bool
  | .word text => Text.sameLetters text "collate"
  | _ => false

/-- The name that a piece is. -/
def Lexeme.name? : Lexeme → Option String
  | .word text | .quoted text => some text
  | _ => none

/-- The names of collations in a definition, at some depth of brackets. -/
def collationNames : Nat → List Lexeme → List String
  | _, [] => []
  | depth, .opening :: rest => collationNames (depth + 1) rest
  | depth, .closing :: rest => collationNames (depth - 1) rest
  | depth, lexeme :: rest =>
    -- Within brackets the word belongs to an expression.
    if depth = 0 ∧ lexeme.isCollate then
      (rest.head?.bind Lexeme.name?).toList ++ collationNames depth rest
    else collationNames depth rest

/-- The collation that a definition gives: the last one that it names, else bytes are
compared. There may be none of this name. -/
def collation? (definition : String) : Option Collation :=
  match (collationNames 0 (lexemes .between definition.toList)).getLast? with
  | none => some .binary
  | some name => Collation.ofName? name

theorem collationNames_unnamed {lexemes : List Lexeme}
    (unnamed : ∀ lexeme ∈ lexemes, lexeme.isCollate = false) (depth : Nat) :
    collationNames depth lexemes = [] := by
  induction lexemes generalizing depth with
  | nil => rfl
  | cons lexeme rest ih =>
    obtain ⟨here, later⟩ := List.forall_mem_cons.mp unnamed
    cases lexeme with
    | opening | closing => exact ih later _
    | word | quoted => simp [collationNames, here, ih later]

/-- A definition without the word names no collation. -/
theorem collation?_unnamed {definition : String}
    (unnamed : ∀ lexeme ∈ lexemes .between definition.toList, lexeme.isCollate = false) :
    collation? definition = some .binary := by
  rw [collation?, collationNames_unnamed unnamed, List.getLast?_nil]

example : collation? "TEXT DEFAULT ('x' COLLATE RTRIM) COLLATE \"NoCase\" NOT NULL" =
    some .nocase := by decide +kernel

example : collation? "TEXT COLLATE german" = none := by decide +kernel

end TableExport.Sqlite
