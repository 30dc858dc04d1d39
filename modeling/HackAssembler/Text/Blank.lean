import HackAssembler.Text.CodeRange

/-!
# Blank characters

The characters that count as blank space in assembly text, and the removal of blank space from both
ends of a text.
-/

set_option autoImplicit false

namespace HackAssembler.Text

/-- The code points of the Unicode property `White_Space`. -/
def blankTable : List CodeRange :=
  [⟨0x0009, 0x000D⟩, .only 0x0020, .only 0x0085, .only 0x00A0, .only 0x1680, ⟨0x2000, 0x200A⟩,
    ⟨0x2028, 0x2029⟩, .only 0x202F, .only 0x205F, .only 0x3000]

example : CodeRange.ascending blankTable = true := by decide +kernel

def isBlank (c : Char) : Bool := CodeRange.anyHolds blankTable c

/-- The text without the blanks at its two ends. -/
def trim (text : List Char) : List Char :=
  ((text.dropWhile isBlank).reverse.dropWhile isBlank).reverse

end HackAssembler.Text
