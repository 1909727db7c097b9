import TableExport.Text.Utf8
import TableExport.Url.Percent
import TableExport.Url.Punycode

/-!
# Hosts

A host is a name, an address, or empty. In URLs of the special schemes a name is a
domain: it is percent-decoded and folded to lower case, and a name whose last part is
a number is an address. In other URLs a name is kept as it is written.
-/
namespace TableExport.Url

/-- Why a text is no URL. -/
inductive UrlError
  | relative
  | emptyHost
  | invalidPort
  | invalidDomainCharacter
  | invalidDomain
  | invalidIpv4
  | invalidIpv6
  deriving DecidableEq, Repr

def UrlError.message : UrlError → String
  | .relative => "relative URL without a base"
  | .emptyHost => "empty host"
  | .invalidPort => "invalid port number"
  | .invalidDomainCharacter => "invalid domain character"
  | .invalidDomain => "invalid international domain name"
  | .invalidIpv4 => "invalid IPv4 address"
  | .invalidIpv6 => "invalid IPv6 address"

inductive Host
  | empty
  | name (text : List Char)
  | ipv4 (address : Nat)
  | ipv6 (pieces : List Nat)
  deriving DecidableEq, Repr

/-- The parts of a text between separators, empty ones included. -/
def splitOn (isSeparator : Char → Bool) : List Char → List (List Char)
  | [] => [[]]
  | c :: rest =>
    match splitOn isSeparator rest with
    | [] => [[]]
    | first :: more => if isSeparator c then [] :: first :: more else (c :: first) :: more

/-! ## Version 4 addresses -/

def radix? (base : Nat) (cs : List Char) : Option Nat :=
  (cs.mapM fun c => (hexValue? c).filter (· < base)).map fun ds =>
    ds.foldl (fun n d => n * base + d) 0

/-- A decimal number, an octal one after `0`, or a hexadecimal one after `0x`. -/
def ipv4Number? (cs : List Char) : Option Nat :=
  match cs with
  | [] => none
  | '0' :: 'x' :: rest | '0' :: 'X' :: rest => radix? 16 rest
  | '0' :: d :: rest => radix? 8 (d :: rest)
  | _ => radix? 10 cs

/-- The parts of a name between dots, without an empty last one. -/
def ipv4Parts (cs : List Char) : List (List Char) :=
  let parts := splitOn (· = '.') cs
  if parts.getLast? = some [] then parts.dropLast else parts

def endsInNumber (cs : List Char) : Bool :=
  match (ipv4Parts cs).getLast? with
  | none => false
  | some last => !last.isEmpty && (last.all Char.isDigit || (ipv4Number? last).isSome)

/-- The address that numbers stand for: each but the last is one byte, and the last
fills the rest. -/
def ipv4? (cs : List Char) : Option Nat := do
  let parts := ipv4Parts cs
  if 4 < parts.length then none
  let numbers ← parts.mapM ipv4Number?
  let last ← numbers.getLast?
  let leading := numbers.dropLast
  if leading.any (255 < ·) || 1 <<< (8 * (4 - leading.length)) ≤ last then none
  some (leading.foldl (fun n d => n * 256 + d) 0 <<< (8 * (4 - leading.length)) + last)

/-! ## Version 6 addresses -/

/-- A decimal byte without leading zeros. -/
def decimalByte? (cs : List Char) : Option Nat :=
  if cs.isEmpty || !cs.all Char.isDigit || (1 < cs.length && cs.head? = some '0') then none
  else
    let n := Decimal.value cs
    if n ≤ 255 then some n else none

/-- Four decimal bytes between dots, as two pieces. -/
def dottedPieces? (cs : List Char) : Option (List Nat) := do
  match ← (splitOn (· = '.') cs).mapM decimalByte? with
  | [a, b, c, d] => some [a * 256 + b, c * 256 + d]
  | _ => none

/-- Reads pieces from the groups between colons. `gap` is the position at which zeros
are to be filled in. An empty group marks the gap, but no single one at the end; the last
group may be a dotted address. -/
def ipv6Groups : List (List Char) → List Nat → Option Nat → Option (List Nat × Option Nat)
  | [], pieces, gap => some (pieces, gap)
  | [] :: [[]], pieces, none => some (pieces ++ [0], some (pieces.length + 1))
  | [[]], _, _ => none
  | [] :: rest, pieces, none => ipv6Groups rest (pieces ++ [0]) (some (pieces.length + 1))
  | [] :: _, _, some _ => none
  | group :: rest, pieces, gap =>
    match radix? 16 group with
    | some n =>
      if group.length ≤ 4 then ipv6Groups rest (pieces ++ [n]) gap else none
    | none =>
      if rest.isEmpty ∧ pieces.length ≤ 6 then
        (dottedPieces? group).map fun two => (pieces ++ two, gap)
      else none

def ipv6? (cs : List Char) : Option (List Nat) :=
  let groups := splitOn (· = ':') cs
  let start :=
    match groups with
    | [] :: [] :: rest => some ([] :: rest)
    | [] :: _ => none
    | groups => some groups
  match start.bind fun groups => ipv6Groups groups [] none with
  | some (pieces, none) => if pieces.length = 8 then some pieces else none
  | some (pieces, some gap) =>
    if pieces.length ≤ 8 then
      some (pieces.take gap ++ List.replicate (8 - pieces.length) 0 ++ pieces.drop gap)
    else none
  | none => none

/-- The lengths of the runs of zeros that begin at each position. -/
def zeroRuns : List Nat → List Nat
  | [] => []
  | piece :: rest =>
    let later := zeroRuns rest
    (if piece = 0 then later.headD 0 + 1 else 0) :: later

/-- The first longest run of at least two zeros: its position and length. -/
def longestRun (pieces : List Nat) : Option (Nat × Nat) :=
  let runs := zeroRuns pieces
  let longest := runs.foldl max 0
  if longest < 2 then none else (runs.findIdx? (· = longest)).map fun start => (start, longest)

def pieceText (pieces : List Nat) : List Char :=
  [':'].intercalate (pieces.map fun piece => Nat.toDigits 16 piece)

/-- An address with its longest run of zeros left out. -/
def ipv6Text (pieces : List Nat) : List Char :=
  match longestRun pieces with
  | none => pieceText pieces
  | some (start, length) =>
    pieceText (pieces.take start) ++ [':', ':'] ++ pieceText (pieces.drop (start + length))

/-! ## Hosts -/

def isForbidden (c : Char) : Bool :=
  ['\x00', '\t', '\n', '\r', ' ', '#', '/', ':', '<', '>', '?', '@', '[', '\\', ']', '^',
    '|'].contains c

def bracketed (cs : List Char) : Except UrlError Host :=
  if cs.getLast? = some ']' ∧ 2 ≤ cs.length then
    match ipv6? (cs.drop 1).dropLast with
    | some pieces => .ok (.ipv6 pieces)
    | none => .error .invalidIpv6
  else .error .invalidIpv6

/-- The host of a URL whose scheme is not special. -/
def plainHost (cs : List Char) : Except UrlError Host :=
  if cs.head? = some '[' then bracketed cs
  else if cs.any isForbidden then .error .invalidDomainCharacter
  else if cs.isEmpty then .ok .empty
  else .ok (.name (encode isControl cs))

/-- The host of a URL with a special scheme. -/
def domainHost (cs : List Char) : Except UrlError Host :=
  if cs.head? = some '[' then bracketed cs
  else
    match Utf8.decode? (decode cs) with
    | none => .error .invalidDomain
    | some text =>
      let isDot (c : Char) : Bool := ['.', '\u3002', '\uff0e', '\uff61'].contains c
      let labels := splitOn isDot (text.toList.map Punycode.fold)
      let domain := ['.'].intercalate (labels.map Punycode.encodeLabel)
      if domain.any fun c => isForbidden c || isControl c || c = '%' then .error .invalidDomain
      else if domain.isEmpty then .error .emptyHost
      else if endsInNumber domain then
        match ipv4? domain with
        | some address => .ok (.ipv4 address)
        | none => .error .invalidIpv4
      else .ok (.name domain)

def Host.text : Host → List Char
  | .empty => []
  | .name text => text
  | .ipv4 address =>
    ['.'].intercalate ([24, 16, 8, 0].map fun shift => Decimal.digits (address >>> shift % 256))
  | .ipv6 pieces => '[' :: ipv6Text pieces ++ [']']

end TableExport.Url
