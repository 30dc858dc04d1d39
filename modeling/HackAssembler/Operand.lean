import HackAssembler.Text.Blank
import HackAssembler.Word

/-!
# Operands of address instructions

An operand that consists of decimal digits is a literal; any other operand is a name. A literal of
any length is read into sixteen bits, with a mark that tells whether the numeral was too large for
an address.
-/

set_option autoImplicit false

namespace HackAssembler

/-- The low sixteen bits of a decimal numeral, and whether it is too large for an address. -/
structure Literal where
  low : Word
  outOfRange : Bool
  deriving Repr, DecidableEq

namespace Literal

def isNumeral (text : String) : Bool := !text.toList.isEmpty && text.toList.all Char.isDigit

/-- Reads one more digit into sixteen bits, and marks the loss of higher bits for good. -/
def shiftIn (sofar : Literal) (digit : Char) : Literal :=
  let value := digit.toNat - '0'.toNat
  { low := sofar.low * 10 + value.toUInt16
    outOfRange := sofar.outOfRange || decide (UInt16.size ≤ sofar.low.toNat * 10 + value) }

def ofDigits (digits : List Char) : Literal :=
  let read := digits.foldl shiftIn ⟨0, false⟩
  { read with outOfRange := read.outOfRange || decide (maxAddress < read.low) }

/-- Reads a decimal numeral; any other text is no literal. -/
def ofText? (text : String) : Option Literal :=
  if isNumeral text then some (ofDigits text.toList) else none

end Literal

/-- Whether a name is free of blanks and parentheses, and not empty. -/
def isPlainName (name : String) : Bool :=
  !name.toList.isEmpty && name.toList.all fun c => c != '(' && c != ')' && !Text.isBlank c

end HackAssembler
