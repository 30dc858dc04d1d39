import HackAssembler.Word

/-!
# Instructions

An instruction with its symbols resolved and its mnemonics replaced by bits, and the machine word
that stands for it. A compute word is `111`, seven bits of computation, three of destination and
three of jump; whatever a field holds above its own bits is cut off.
-/

set_option autoImplicit false

namespace HackAssembler

/-- An instruction that is ready to be encoded. -/
inductive Instruction where
  /-- Puts a value into the register A. -/
  | address (value : Word)
  /-- Computes, stores and jumps as the bits of its fields say. -/
  | compute (dest comp jump : Word)
  deriving Repr, DecidableEq

namespace Instruction

def encode : Instruction → Word
  | address value => value
  | compute dest comp jump =>
    ((0b111 : Word) <<< 13) ||| ((comp &&& 0b1111111) <<< 6) ||| ((dest &&& 0b111) <<< 3) |||
      (jump &&& 0b111)

/-- The machine word of an instruction as sixteen binary digits. -/
def text (instruction : Instruction) : String := instruction.encode.text

end Instruction

end HackAssembler
