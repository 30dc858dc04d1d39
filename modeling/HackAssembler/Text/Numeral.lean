/-!
# Numerals

How numbers are written: a 16-bit word as sixteen binary digits, and an address in hexadecimal with
at least four digits. Decimal numerals are those of the standard library.
-/

set_option autoImplicit false

namespace HackAssembler.Text

/-- The sixteen binary digits of a word, the highest bit first. -/
def binaryDigits (word : UInt16) : List Char :=
  (List.range 16).map fun i => if word.toBitVec.getMsbD i then '1' else '0'

/-- The hexadecimal digits of a number, in upper case and with zeros in front up to four digits. -/
def hexDigits (n : Nat) : List Char :=
  let digits := (Nat.toDigits 16 n).map Char.toUpper
  List.replicate (4 - digits.length) '0' ++ digits

/-- A number in hexadecimal, marked as such. -/
def hexText (n : Nat) : String := "0x" ++ String.ofList (hexDigits n)

@[simp] theorem length_binaryDigits (word : UInt16) : (binaryDigits word).length = 16 := by
  simp [binaryDigits]

end HackAssembler.Text
