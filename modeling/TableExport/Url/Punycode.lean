import TableExport.Decimal.Digits
import TableExport.Text.LetterCase

/-!
# Domain labels beyond ASCII

A label with characters beyond ASCII is written with the prefix `xn--` and a code for
the positions and values of those characters (Bootstring with the parameters of
Punycode). Full-width forms of ASCII characters, and capitals of the Latin-1, Greek and
Cyrillic alphabets, are folded first.
-/
namespace TableExport.Url.Punycode

/-- The lower case of a letter of the common alphabets. -/
def lower (c : Char) : Char :=
  let n := c.toNat
  if 'A' ≤ c ∧ c ≤ 'Z' then Char.ofNat (n + 32)
  else if 0xc0 ≤ n ∧ n ≤ 0xde ∧ n ≠ 0xd7 then Char.ofNat (n + 32)
  else if 0x391 ≤ n ∧ n ≤ 0x3a9 ∧ n ≠ 0x3a2 then Char.ofNat (n + 32)
  else if 0x410 ≤ n ∧ n ≤ 0x42f then Char.ofNat (n + 32)
  else if 0x400 ≤ n ∧ n ≤ 0x40f then Char.ofNat (n + 80)
  else c

/-- The lower case of a character, or of the ASCII character of a full-width form. -/
def fold (c : Char) : Char :=
  if '\uff01' ≤ c ∧ c ≤ '\uff5e' then lower (Char.ofNat (c.toNat - 0xfee0)) else lower c

/-- A digit of base 36: letters first, then figures. -/
def digit (n : Nat) : Char := if n < 26 then Char.ofNat (97 + n) else Char.ofNat (22 + n)

def threshold (k bias : Nat) : Nat := if k ≤ bias then 1 else min 26 (k - bias)

/-- A number in the base that varies with the position. Each step divides by at least ten. -/
def number (bias : Nat) : Nat → Nat → Nat → List Char
  | 0, _, _ => []
  | fuel + 1, k, q =>
    let t := threshold k bias
    if q < t then [digit q]
    else digit (t + (q - t) % (36 - t)) :: number bias fuel (k + 36) ((q - t) / (36 - t))

def settle : Nat → Nat → Nat → Nat
  | 0, k, delta => k + 36 * delta / (delta + 38)
  | fuel + 1, k, delta =>
    if 455 < delta then settle fuel (k + 36) (delta / 35) else k + 36 * delta / (delta + 38)

def adapt (delta count : Nat) (first : Bool) : Nat :=
  let scaled := if first then delta / 700 else delta / 2
  settle (scaled + 1) 0 (scaled + scaled / count)

/-- The state between characters: the next code point, the running delta, the bias,
and how many characters are written. -/
structure State where
  next : Nat
  delta : Nat
  bias : Nat
  written : Nat
  basic : Nat

/-- Goes once through the label for the code point `n`. -/
def pass (n : Nat) : List Nat → State → List Char × State
  | [], s => ([], s)
  | c :: rest, s =>
    if c < n then pass n rest { s with delta := s.delta + 1 }
    else if c = n then
      let out := number s.bias (s.delta + 1) 36 s.delta
      let bias := adapt s.delta (s.written + 1) (s.written = s.basic)
      let later := pass n rest { s with delta := 0, bias := bias, written := s.written + 1 }
      (out ++ later.1, later.2)
    else pass n rest s

/-- Handles the distinct code points beyond ASCII in rising order. -/
def passes (label : List Nat) : List Nat → State → List Char
  | [], _ => []
  | n :: rest, s =>
    let grown := { s with delta := s.delta + (n - s.next) * (s.written + 1) }
    let (out, after) := pass n label grown
    out ++ passes label rest { after with next := n + 1, delta := after.delta + 1 }

def encodeLabel (label : List Char) : List Char :=
  let basic := label.filter fun c => c ≤ '\x7f'
  if basic.length = label.length then label
  else
    let points := label.map Char.toNat
    let high := (points.filter fun n => 0x7f < n).mergeSort.eraseDups
    "xn--".toList ++ basic ++ (if basic.isEmpty then [] else ['-']) ++
      passes points high ⟨128, 0, 72, basic.length, basic.length⟩

end TableExport.Url.Punycode
