/-!
# Letter case

Folding to lower case for comparison with ASCII words. Besides the ASCII
capitals one character has a lower case that is a single ASCII letter, the
Kelvin sign; every other capital stays different from all ASCII words under
full lower-casing too.
-/
namespace TableExport.Text

/-- The lower case of a character, as far as it is an ASCII letter. -/
def lowerChar (c : Char) : Char := if c = '\u212a' then 'k' else c.toLower

/-- The text with its capitals folded by `lowerChar`. -/
def lower (text : String) : String := String.ofList (text.toList.map lowerChar)

/-- Equality of two texts when the case of ASCII letters does not count. -/
def sameLetters (a b : String) : Bool :=
  a.toList.map Char.toLower == b.toList.map Char.toLower

end TableExport.Text
