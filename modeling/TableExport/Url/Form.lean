import TableExport.Text.Utf8
import TableExport.Url.Percent

/-!
# Query parameters

The names and values of a query: pairs between ampersands, split at the first equals
sign, with plus signs for blanks and percent-encoded bytes.
-/
namespace TableExport.Url

/-- A name or value; ill-formed bytes are replaced. -/
def formText (cs : List Char) : String :=
  Utf8.decodeLossy (decode (cs.map fun c => if c = '+' then ' ' else c))

/-- One pair. Without an equals sign the value is empty. -/
def formPair (cs : List Char) : String × String :=
  (formText (cs.takeWhile (· ≠ '=')), formText ((cs.dropWhile (· ≠ '=')).drop 1))

/-- The text up to the first ampersand, and what follows. -/
def formPieces : List Char → List (List Char)
  | [] => [[]]
  | c :: rest =>
    match formPieces rest with
    | [] => [[]]
    | first :: more => if c = '&' then [] :: first :: more else (c :: first) :: more

/-- All pairs of a query; empty pieces count for nothing. -/
def formPairs (query : List Char) : List (String × String) :=
  ((formPieces query).filter (· ≠ [])).map formPair

end TableExport.Url
