import HackAssembler.Text.Numeral

/-!
# Machine words

The machine works on words of sixteen bits. An address instruction carries fifteen of them, so the
largest address that fits is `maxAddress`.
-/

set_option autoImplicit false

namespace HackAssembler

abbrev Word := UInt16

/-- The largest address that an address instruction can carry. -/
def maxAddress : Word := 0x7FFF

/-- The address of the first variable, just above the sixteen working registers. -/
def variableBase : Word := 16

/-- A word as sixteen binary digits. -/
def Word.text (word : Word) : String := String.ofList (Text.binaryDigits word)

/-- A word in hexadecimal, as messages show addresses. -/
def Word.hex (word : Word) : String := Text.hexText word.toNat

end HackAssembler
