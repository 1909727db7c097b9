/-!
# Padding

Texts set to a least width, counted in characters. Longer texts are kept whole.
-/
namespace TableExport.Text

/-- The greatest width that a field can be set to. -/
def greatestWidth : Nat := 65535

/-- Blanks that bring a text of `length` characters to `width`. -/
def fill (width length : Nat) : String := String.ofList (List.replicate (width - length) ' ')

/-- The text at the left end of a field of `width` characters. -/
def padEnd (width : Nat) (text : String) : String := text ++ fill width text.length

/-- The text at the right end of a field of `width` characters. -/
def padStart (width : Nat) (text : String) : String := fill width text.length ++ text

end TableExport.Text
