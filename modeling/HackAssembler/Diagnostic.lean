import HackAssembler.Log
import HackAssembler.Mnemonic
import HackAssembler.Token

/-!
# Faults and notices

What can be wrong with a source, and what the assembly of a source has to say. A fault is a defect
on its line and ends the assembly. A notice is an entry of the log; it is a warning if something
was replaced, moved or cut.
-/

set_option autoImplicit false

namespace HackAssembler

/-- What can be wrong with a line. -/
inductive Defect where
  | unknownMnemonic (field : Field) (mnemonic : String)
  /-- A text looks like a label declaration and is none. -/
  | malformedLabel (text : String)
  /-- A label is declared although its name has an address. -/
  | duplicateLabel (name : String) (previous : Word)
  /-- An address needs more than fifteen bits. -/
  | addressOutOfRange (value : String)
  | missingOperand
  deriving Repr, DecidableEq

def Defect.text : Defect → String
  | unknownMnemonic field mnemonic => "unknown " ++ field.name ++ " mnemonic `" ++ mnemonic ++ "`"
  | malformedLabel text => "malformed label declaration `" ++ text ++ "`"
  | duplicateLabel name previous =>
    "label `" ++ name ++ "` is already bound to address " ++ toString previous.toNat
  | addressOutOfRange value =>
    "address `" ++ value ++ "` does not fit in 15 bits (max " ++ toString maxAddress.toNat ++ ")"
  | missingOperand => "`@` is missing its operand"

/-- A text that speaks of a line. -/
def onLine (line : Nat) (text : String) : String := "line " ++ toString line ++ ": " ++ text

abbrev Fault := Located Defect

def Fault.message (fault : Fault) : String := onLine fault.line fault.item.text

/-- What the assembly of a source has to say. -/
inductive Notice where
  | labelPlaced (name : String) (address : Word)
  /-- A label took the place of what its name stood for before. -/
  | labelMoved (line : Nat) (name : String) (previous address : Word)
  /-- A label stands after more instructions than there are addresses for. -/
  | labelPastEnd (line : Nat) (name : String) (address : Nat)
  | labelsDone (instructions symbols : Nat)
  /-- Only the low bits of a literal are used. -/
  | literalCut (line : Nat) (literal : String) (address : Word)
  | variablePlaced (name : String) (address : Word)
  /-- A variable lies above the addresses that there are. -/
  | variablePastEnd (line : Nat) (name : String)
  /-- Bits stand in for a mnemonic that the field does not know. -/
  | mnemonicReplaced (line : Nat) (field : Field) (mnemonic : String)
  | encodingDone (count : Word)
  deriving Repr, DecidableEq

namespace Notice

/-- How much a notice matters: what was changed or cut is a warning. -/
def severity : Notice → Severity
  | labelPlaced .. | labelsDone .. | variablePlaced .. | encodingDone .. => .debug
  | labelMoved .. | labelPastEnd .. | literalCut .. | variablePastEnd .. | mnemonicReplaced .. =>
    .warn

def text : Notice → String
  | labelPlaced name address => "label `" ++ name ++ "` => " ++ address.hex
  | labelMoved line name previous address =>
    onLine line ("label `" ++ name ++ "` redeclared, moving it from " ++ previous.hex ++ " to " ++
      address.hex)
  | labelPastEnd line name address =>
    onLine line ("label `" ++ name ++ "` at instruction " ++ toString address ++
      " is past the end of addressable ROM")
  | labelsDone instructions symbols =>
    "pass one: " ++ toString instructions ++ " instruction(s), " ++ toString symbols ++
      " symbol(s)"
  | literalCut line literal address =>
    onLine line ("literal `" ++ literal ++ "` does not fit in 15 bits, encoding " ++ address.hex)
  | variablePlaced name address => "variable `" ++ name ++ "` => " ++ address.hex
  | variablePastEnd line name =>
    onLine line ("variable `" ++ name ++ "` allocated past the end of RAM")
  | mnemonicReplaced line field mnemonic =>
    onLine line ("unknown " ++ field.name ++ " mnemonic `" ++ mnemonic ++ "`, encoding " ++
      String.ofList (Nat.toDigits 2 field.fallback.toNat))
  | encodingDone count => "pass two: " ++ toString count.toNat ++ " variable(s) allocated"

def record (notice : Notice) : Record := ⟨.assembly, notice.severity, notice.text⟩

end Notice

end HackAssembler
