import HackAssembler.Text.Split
import HackAssembler.Word

/-!
# Mnemonics

A compute instruction has three fields: where the result goes, what is computed, and on which
results to jump. Each field has a table of mnemonics and their bits. The text `dest=comp;jump`
names one mnemonic for each field; a missing destination or jump is read as the mnemonic `null`.
-/

set_option autoImplicit false

namespace HackAssembler

inductive Field where
  | dest
  | comp
  | jump
  deriving Repr, DecidableEq

namespace Field

def name : Field → String
  | dest => "dest"
  | comp => "comp"
  | jump => "jump"

/-- The destinations: one bit each for the registers A and D and the memory cell M. -/
def destTable : List (String × Word) :=
  [("null", 0b000), ("M", 0b001), ("D", 0b010), ("MD", 0b011), ("A", 0b100), ("AM", 0b101),
    ("AD", 0b110), ("AMD", 0b111)]

/-- The computations: the highest bit takes M in place of A, the other six control the ALU. -/
def compTable : List (String × Word) :=
  [("0", 0b0101010), ("1", 0b0111111), ("-1", 0b0111010), ("D", 0b0001100), ("A", 0b0110000),
    ("!D", 0b0001101), ("!A", 0b0110001), ("-D", 0b0001111), ("-A", 0b0110011),
    ("D+1", 0b0011111), ("A+1", 0b0110111), ("D-1", 0b0001110), ("A-1", 0b0110010),
    ("D+A", 0b0000010), ("D-A", 0b0010011), ("A-D", 0b0000111), ("D&A", 0b0000000),
    ("D|A", 0b0010101),
    ("M", 0b1110000), ("!M", 0b1110001), ("-M", 0b1110011), ("M+1", 0b1110111),
    ("M-1", 0b1110010), ("D+M", 0b1000010), ("D-M", 0b1010011), ("M-D", 0b1000111),
    ("D&M", 0b1000000), ("D|M", 0b1010101)]

/-- The jumps: one bit each for a negative, a zero and a positive result. -/
def jumpTable : List (String × Word) :=
  [("null", 0b000), ("JGT", 0b001), ("JEQ", 0b010), ("JGE", 0b011), ("JLT", 0b100),
    ("JNE", 0b101), ("JLE", 0b110), ("JMP", 0b111)]

/-- The mnemonics of a field and their bits. -/
def table : Field → List (String × Word)
  | dest => destTable
  | comp => compTable
  | jump => jumpTable

/-- The bits of a mnemonic, if the field knows it. -/
def bits? (field : Field) (mnemonic : String) : Option Word := field.table.lookup mnemonic

/-- The bits that stand in for a mnemonic the field does not know: none is set. -/
def fallback : Field → Word
  | dest => 0b000
  | comp => 0b0000000
  | jump => 0b000

end Field

/-- One mnemonic for each field of a compute instruction. -/
structure Mnemonics where
  dest : String
  comp : String
  jump : String
  deriving Repr, DecidableEq

namespace Mnemonics

/-- The mnemonic that stands for no destination, or for no jump. -/
def absent : String := "null"

/-- Reads `dest=comp;jump`, cut at the first `=` and then at the first `;` after it. -/
def ofText (text : String) : Mnemonics :=
  let (dest, rest) := match Text.splitAtFirst '=' text.toList with
    | some (before, after) => (String.ofList before, after)
    | none => (absent, text.toList)
  let (comp, jump) := match Text.splitAtFirst ';' rest with
    | some (before, after) => (before, String.ofList after)
    | none => (rest, absent)
  ⟨dest, String.ofList comp, jump⟩

end Mnemonics

end HackAssembler
