import HackAssembler.Instruction
import HackAssembler.Mode

/-!
# Encoding of computations

The bits for the text of a computation. The fields are looked at in the order destination,
computation, jump, so of several unknown mnemonics the first one in that order is the fault.
-/

set_option autoImplicit false

namespace HackAssembler

/-- The bits of a mnemonic, or those that stand in for it. -/
def Field.encode (mode : Mode) (line : Nat) (field : Field) (mnemonic : String) : Assembly Word :=
  match field.bits? mnemonic with
  | some bits => pure bits
  | none => do
    mode.expect false line (.unknownMnemonic field mnemonic) (.mnemonicReplaced line field mnemonic)
    return field.fallback

/-- The instruction for one mnemonic in each field. -/
def Mnemonics.encode (mode : Mode) (line : Nat) (mnemonics : Mnemonics) : Assembly Instruction := do
  let dest ← Field.dest.encode mode line mnemonics.dest
  let comp ← Field.comp.encode mode line mnemonics.comp
  let jump ← Field.jump.encode mode line mnemonics.jump
  return .compute dest comp jump

end HackAssembler
