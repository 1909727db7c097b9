import TableExport.Decimal.Digits
import TableExport.Toml.Value
import TableExport.Url.Percent

/-!
# Keys and scalars of a settings file

Readers for the smallest parts of a TOML document: blanks, comments, quoted texts,
numbers and dates. Each gives what it read and the characters that follow.
-/
namespace TableExport.Toml

open Url (hexValue?)

/-- What a reader gives: a result and the characters after it. -/
abbrev Read (α : Type) := Option (α × List Char)

/-! ## Blanks and comments -/

def isBlank (c : Char) : Bool := c = ' ' || c = '\t'

def skipBlanks (cs : List Char) : List Char := cs.dropWhile isBlank

/-- The characters of comments and literal texts: all but controls, with the tab. -/
def isPrintable (c : Char) : Bool := c = '\t' || (' ' ≤ c && c ≠ '\x7f')

/-- A line feed, with or without a carriage return before it. -/
def newline? : List Char → Option (List Char)
  | '\n' :: rest => some rest
  | '\r' :: '\n' :: rest => some rest
  | _ => none

def skipComment : List Char → List Char
  | '#' :: rest => rest.dropWhile isPrintable
  | cs => cs

/-- The end of a line: blanks, a comment, and a line end or the end of the text. -/
def endOfLine? (cs : List Char) : Option (List Char) :=
  match skipComment (skipBlanks cs) with
  | [] => some []
  | rest => newline? rest

/-- Skips blanks, line ends and comments. A comment must end its line. The count bounds
the number of steps. -/
def skipLines : Nat → List Char → Option (List Char)
  | 0, cs => some cs
  | fuel + 1, cs =>
    match cs with
    | ' ' :: rest | '\t' :: rest => skipLines fuel rest
    | '\n' :: rest | '\r' :: '\n' :: rest => skipLines fuel rest
    | '#' :: rest => (newline? (rest.dropWhile isPrintable)).bind (skipLines fuel)
    | _ => some cs

/-! ## Texts -/

def hexNumber? (cs : List Char) : Option Nat :=
  (cs.mapM hexValue?).map fun ds => ds.foldl (fun n d => n * 16 + d) 0

/-- The character of a code point, which must not be a surrogate. -/
def scalar? (n : Nat) : Option Char :=
  if n < 0xd800 ∨ (0xdfff < n ∧ n < 0x110000) then some (Char.ofNat n) else none

/-- An escape after its backslash. -/
def escape? : List Char → Read Char
  | 'b' :: rest => some ('\x08', rest)
  | 't' :: rest => some ('\t', rest)
  | 'n' :: rest => some ('\n', rest)
  | 'f' :: rest => some ('\x0c', rest)
  | 'r' :: rest => some ('\r', rest)
  | '"' :: rest => some ('"', rest)
  | '\\' :: rest => some ('\\', rest)
  | 'u' :: rest =>
    if rest.length < 4 then none
    else ((hexNumber? (rest.take 4)).bind scalar?).map fun c => (c, rest.drop 4)
  | 'U' :: rest =>
    if rest.length < 8 then none
    else ((hexNumber? (rest.take 8)).bind scalar?).map fun c => (c, rest.drop 8)
  | _ => none

/-- A text in single quotes after the first of them. -/
def literalText? : List Char → Read (List Char)
  | [] => none
  | c :: rest =>
    if c = '\'' then some ([], rest)
    else if isPrintable c then (literalText? rest).map fun read => (c :: read.1, read.2)
    else none

/-- A text in double quotes after the first of them. -/
def quotedText? : Nat → List Char → Read (List Char)
  | 0, _ => none
  | _ + 1, [] => none
  | fuel + 1, c :: rest =>
    if c = '"' then some ([], rest)
    else if c = '\\' then
      (escape? rest).bind fun (escaped, rest) =>
        (quotedText? fuel rest).map fun read => (escaped :: read.1, read.2)
    else if isPrintable c then (quotedText? fuel rest).map fun read => (c :: read.1, read.2)
    else none

/-- How many times a character stands at the front. -/
def countFront (c : Char) (cs : List Char) : Nat := (cs.takeWhile (· = c)).length

/-- Skips blanks and line ends. A carriage return that ends no line is kept. -/
def skipSpace : List Char → List Char
  | '\r' :: '\n' :: rest => skipSpace rest
  | c :: rest => if isBlank c || c = '\n' then skipSpace rest else c :: rest
  | [] => []

/-- Skips the blanks and line ends that a backslash at the end of a line takes away. -/
def skipContinuation (cs : List Char) : Option (List Char) :=
  (newline? (skipBlanks cs)).map skipSpace

/-- A text between three quotes after the first three. Up to two quotes may stand before
the closing three. In texts between double quotes there are escapes. -/
def longText? (mark : Char) : Nat → List Char → Read (List Char)
  | 0, _ => none
  | _ + 1, [] => none
  | fuel + 1, c :: rest =>
    if c = mark then
      let count := countFront mark (c :: rest)
      let after := (c :: rest).drop count
      if count < 3 then
        (longText? mark fuel after).map fun read => (List.replicate count mark ++ read.1, read.2)
      else if count ≤ 5 then some (List.replicate (count - 3) mark, after)
      else none
    else if c = '\\' ∧ mark = '"' then
      match skipContinuation rest with
      | some rest => longText? mark fuel rest
      | none =>
        (escape? rest).bind fun (escaped, rest) =>
          (longText? mark fuel rest).map fun read => (escaped :: read.1, read.2)
    else
      match newline? (c :: rest) with
      | some rest => (longText? mark fuel rest).map fun read => ('\n' :: read.1, read.2)
      | none =>
        if isPrintable c then (longText? mark fuel rest).map fun read => (c :: read.1, read.2)
        else none

/-- Drops the line end right after an opening mark. -/
def dropFirstNewline (cs : List Char) : List Char := (newline? cs).getD cs

/-- A text in any of the four kinds of quotes. -/
def text? (cs : List Char) : Read String :=
  let read := match cs with
    | '"' :: '"' :: '"' :: rest => longText? '"' (rest.length + 1) (dropFirstNewline rest)
    | '\'' :: '\'' :: '\'' :: rest => longText? '\'' (rest.length + 1) (dropFirstNewline rest)
    | '"' :: rest => quotedText? (rest.length + 1) rest
    | '\'' :: rest => literalText? rest
    | _ => none
  read.map fun (text, rest) => (String.ofList text, rest)

/-! ## Keys -/

def isBareKey (c : Char) : Bool := c.isAlphanum || c = '_' || c = '-'

/-- One part of a key: quoted on one line, or bare. -/
def keyPart? (cs : List Char) : Read String :=
  match cs with
  | '"' :: rest =>
    (quotedText? (rest.length + 1) rest).map fun (text, rest) => (String.ofList text, rest)
  | '\'' :: rest => (literalText? rest).map fun (text, rest) => (String.ofList text, rest)
  | cs =>
    let bare := cs.takeWhile isBareKey
    if bare.isEmpty then none else some (String.ofList bare, cs.dropWhile isBareKey)

def deepest : Nat := 79

/-- Parts of a key with dots and blanks between them; at most as many as the count. -/
def key? : Nat → List Char → Read (List String)
  | 0, _ => none
  | fuel + 1, cs =>
    match keyPart? (skipBlanks cs) with
    | none => none
    | some (part, rest) =>
      match skipBlanks rest with
      | '.' :: rest => (key? fuel rest).map fun (parts, rest) => (part :: parts, rest)
      | rest => some ([part], rest)

/-! ## Numbers -/

/-- Digits of a base with single underscores between them. -/
def digitRun? (isDigit : Char → Bool) : List Char → Read (List Char)
  | [] => none
  | c :: rest =>
    if !isDigit c then none
    else
      match rest with
      | '_' :: next => (digitRun? isDigit next).map fun (ds, rest) => (c :: ds, rest)
      | d :: more =>
        if isDigit d then (digitRun? isDigit (d :: more)).map fun (ds, rest) => (c :: ds, rest)
        else some ([c], d :: more)
      | [] => some ([c], [])

def takeSign : List Char → Bool × List Char
  | '-' :: rest => (true, rest)
  | '+' :: rest => (false, rest)
  | cs => (false, cs)

/-- Decimal digits without a leading zero. -/
def wholePart? : List Char → Read (List Char)
  | '0' :: rest => some (['0'], rest)
  | cs => digitRun? Char.isDigit cs

def fitting? (n : Int) (rest : List Char) : Read Value :=
  if Int64.minValue.toInt ≤ n ∧ n ≤ Int64.maxValue.toInt then some (.integer n, rest) else none

/-- Digits of a base after its mark. -/
def based? (base : Nat) (cs : List Char) : Read Value :=
  (digitRun? (fun c => ((hexValue? c).filter (· < base)).isSome) cs).bind fun (ds, rest) =>
    fitting? (ds.foldl (fun n d => n * base + (hexValue? d).getD 0) 0 : Nat) rest

/-- An integer. Other bases than ten take no sign. -/
def integer? (cs : List Char) : Read Value :=
  match cs with
  | '0' :: 'x' :: rest => based? 16 rest
  | '0' :: 'o' :: rest => based? 8 rest
  | '0' :: 'b' :: rest => based? 2 rest
  | cs =>
    let (negative, body) := takeSign cs
    (wholePart? body).bind fun (ds, rest) =>
      let n : Int := Decimal.value ds
      fitting? (if negative then -n else n) rest

/-- Whether a positive decimal number rounds to infinity as a binary64 number. Numbers of
very many digits are decided by their magnitude alone. -/
def overflows (digits : List Char) (exponent : Int) : Bool :=
  let n := Decimal.value digits
  let size : Int := (Decimal.digits n).length + exponent
  if n = 0 ∨ size < 300 then false
  else if 320 < size then true
  else
    let bound := 1 <<< 1024 - 1 <<< 970
    if 0 ≤ exponent then bound ≤ n * Decimal.tens exponent.toNat
    else bound * Decimal.tens (-exponent).toNat ≤ n

/-- The exponent of a number, if one follows: `none` if it is malformed. -/
def exponentPart? (cs : List Char) : Read Int :=
  match cs with
  | 'e' :: rest | 'E' :: rest =>
    let (negative, body) := takeSign rest
    (digitRun? Char.isDigit body).map fun (ds, rest) =>
      let n : Int := Decimal.value ds
      (if negative then -n else n, rest)
  | cs => some (0, cs)

def fractionPart? (cs : List Char) : Read (List Char) :=
  match cs with
  | '.' :: rest => digitRun? Char.isDigit rest
  | cs => some ([], cs)

/-- A floating point number with a point, an exponent or both. The outer option says
whether one starts here; positive ones must not be too large. -/
def float? (cs : List Char) : Option (Read Value) :=
  let (negative, body) := takeSign cs
  match body with
  | 'i' :: 'n' :: 'f' :: rest | 'n' :: 'a' :: 'n' :: rest => some (some (.float, rest))
  | body =>
    match wholePart? body with
    | some (whole, '.' :: rest) | some (whole, 'e' :: rest) | some (whole, 'E' :: rest) =>
      let tail := body.drop (body.length - rest.length - 1)
      some <|
        (fractionPart? tail).bind fun (fraction, rest) =>
          (exponentPart? rest).bind fun (exponent, rest) =>
            if !negative && overflows (whole ++ fraction) (exponent - fraction.length) then none
            else some (.float, rest)
    | _ => none

/-! ## Dates -/

/-- A fixed number of digits as a number between two bounds. -/
def digitsWithin? (count low high : Nat) (cs : List Char) : Read Nat :=
  let ds := cs.take count
  if ds.length = count ∧ ds.all Char.isDigit ∧ low ≤ Decimal.value ds ∧ Decimal.value ds ≤ high then
    some (Decimal.value ds, cs.drop count)
  else none

def mark? (c : Char) : List Char → Option (List Char)
  | [] => none
  | d :: rest => if d = c then some rest else none

def monthDays (year month : Nat) : Nat :=
  if month = 2 then
    if year % 4 = 0 ∧ (year % 100 ≠ 0 ∨ year % 400 = 0) then 29 else 28
  else if month = 4 ∨ month = 6 ∨ month = 9 ∨ month = 11 then 30
  else 31

def monthAndDay? (year : Nat) (cs : List Char) : Option (List Char) := do
  let (month, rest) ← digitsWithin? 2 1 12 cs
  let rest ← mark? '-' rest
  let (_, rest) ← digitsWithin? 2 1 (monthDays year month) rest
  some rest

/-- Minutes, seconds and a fraction after an hour and its colon. -/
def minutesOn? (cs : List Char) : Option (List Char) := do
  let (_, rest) ← digitsWithin? 2 0 59 cs
  let rest ← mark? ':' rest
  let (_, rest) ← digitsWithin? 2 0 60 rest
  match rest with
  | '.' :: d :: more => if d.isDigit then some (more.dropWhile Char.isDigit) else some rest
  | rest => some rest

def time? (cs : List Char) : Option (Option (List Char)) :=
  match digitsWithin? 2 0 23 cs with
  | some (_, ':' :: rest) => some (minutesOn? rest)
  | _ => none

def offset? (cs : List Char) : Option (List Char) :=
  match cs with
  | 'Z' :: rest | 'z' :: rest => some rest
  | '+' :: rest | '-' :: rest => do
    let (_, rest) ← digitsWithin? 2 0 23 rest
    let rest ← mark? ':' rest
    let (_, rest) ← digitsWithin? 2 0 59 rest
    some rest
  | rest => some rest

/-- A date, a time, or both. The outer option says whether one starts here. -/
def date? (cs : List Char) : Option (Read Value) :=
  match digitsWithin? 4 0 9999 cs with
  | some (year, '-' :: rest) =>
    some <| (monthAndDay? year rest).bind fun rest =>
      match rest with
      | d :: more =>
        if d = 'T' ∨ d = 't' ∨ d = ' ' then
          match time? more with
          | some clock => (clock.bind offset?).map fun rest => (.date, rest)
          | none => some (.date, rest)
        else some (.date, rest)
      | [] => some (.date, [])
  | _ => (time? cs).map fun rest => rest.map fun rest => (.date, rest)

/-- A number or date: the first kind that starts here is read. -/
def number? (cs : List Char) : Read Value :=
  match date? cs with
  | some read => read
  | none =>
    match float? cs with
    | some read => read
    | none => integer? cs

end TableExport.Toml
